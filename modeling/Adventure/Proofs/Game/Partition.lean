import Adventure.Proofs.Game.Stock

/-! How the tables of movies hang together. Animations own runs of motions, and motions runs of
frames; in their order these runs tile the tables. The runs of sounds go up too, with gaps
where a movie could not be put in. -/

namespace Adventure

/-- A run of entries of a table. -/
structure Run where
  first : Int
  count : Int
  deriving DecidableEq, Repr

namespace Run

def stop (r : Run) : Int := r.first + r.count

def Has (r : Run) (i : Int) : Prop := r.first ≤ i ∧ i < r.stop

/-- Each run starts where the one before it stops, from `a` to `b`. -/
def Tile : Int → List Run → Int → Prop
  | a, [], b => a = b
  | a, r :: l, b => r.first = a ∧ 0 ≤ r.count ∧ Tile r.stop l b

/-- No run starts before the one before it stops; all are between `a` and `b`. -/
def Ascend : Int → List Run → Int → Prop
  | a, [], b => a ≤ b
  | a, r :: l, b => a ≤ r.first ∧ 0 ≤ r.count ∧ Ascend r.stop l b

variable {a b c : Int} {l l' : List Run} {r : Run}

theorem Tile.le (h : Tile a l b) : a ≤ b := by
  induction l generalizing a with
  | nil => exact Int.le_of_eq h
  | cons r l ih =>
    obtain ⟨rfl, hcount, hl⟩ := h
    have := ih hl
    simp only [stop] at this
    omega

theorem Ascend.le (h : Ascend a l b) : a ≤ b := by
  induction l generalizing a with
  | nil => exact h
  | cons r l ih =>
    obtain ⟨hfirst, hcount, hl⟩ := h
    have := ih hl
    simp only [stop] at this
    omega

theorem tile_append : Tile a (l ++ l') c ↔ ∃ b, Tile a l b ∧ Tile b l' c := by
  induction l generalizing a with
  | nil => simp [Tile]
  | cons r l ih => simp only [List.cons_append, Tile, ih, ← exists_and_left, and_assoc]

/-- A run behind those that are there. -/
theorem Tile.snoc {n : Nat} (h : Tile a l n) (k : Nat) : Tile a (l ++ [⟨n, k⟩]) (n + k : Nat) :=
  tile_append.mpr ⟨n, h, rfl, Int.natCast_nonneg k, rfl⟩

theorem Ascend.snoc {n : Nat} (h : Ascend a l n) (k : Nat) : Ascend a (l ++ [⟨n, k⟩]) (n + k : Nat) := by
  induction l generalizing a with
  | nil => exact ⟨h, Int.natCast_nonneg k, Int.le_refl _⟩
  | cons r l ih => exact ⟨h.1, h.2.1, ih h.2.2⟩

theorem Ascend.mono (h : Ascend a l b) (hbc : b ≤ c) : Ascend a l c := by
  induction l generalizing a with
  | nil => exact Int.le_trans h hbc
  | cons r l ih => exact ⟨h.1, h.2.1, ih h.2.2⟩

/-- The runs up to one of them tile what is in front of where that one stops. -/
theorem Tile.take (h : Tile a l b) {i : Nat} (hi : l[i]? = some r) : Tile a (l.take (i + 1)) r.stop ∧ r.stop ≤ b := by
  induction l generalizing a i with
  | nil => cases hi
  | cons s l ih =>
    obtain ⟨rfl, hcount, hl⟩ := h
    cases i with
    | zero =>
      cases hi
      exact ⟨⟨rfl, hcount, rfl⟩, hl.le⟩
    | succ i =>
      obtain ⟨htake, hle⟩ := ih hl hi
      exact ⟨⟨rfl, hcount, htake⟩, hle⟩

theorem Ascend.take (h : Ascend a l b) {i : Nat} (hi : l[i]? = some r) :
    Ascend a (l.take (i + 1)) r.stop ∧ r.stop ≤ b := by
  induction l generalizing a i with
  | nil => cases hi
  | cons s l ih =>
    obtain ⟨hfirst, hcount, hl⟩ := h
    cases i with
    | zero =>
      cases hi
      exact ⟨⟨hfirst, hcount, Int.le_refl _⟩, hl.le⟩
    | succ i =>
      obtain ⟨htake, hle⟩ := ih hl hi
      exact ⟨⟨hfirst, hcount, htake⟩, hle⟩

/-- What is tiled is in one of the runs. -/
theorem Tile.exists_has (h : Tile a l b) {n : Int} (ha : a ≤ n) (hb : n < b) : ∃ (i : Nat) (r : Run), l[i]? = some r ∧ r.Has n := by
  induction l generalizing a with
  | nil => exact absurd (h ▸ hb) (Int.not_lt.mpr ha)
  | cons r l ih =>
    obtain ⟨rfl, -, hl⟩ := h
    by_cases hn : n < r.stop
    · exact ⟨0, r, rfl, ha, hn⟩
    · obtain ⟨i, t, ht, hhas⟩ := ih hl (Int.not_lt.mp hn)
      exact ⟨i + 1, t, ht, hhas⟩

/-- Runs that tile something stop where the last of them does. -/
theorem Tile.stop_eq (h : Tile a l b) : b = (l.getLast?.map stop).getD a := by
  induction l generalizing a with
  | nil => exact h.symm
  | cons r l ih =>
    rw [ih h.2.2]
    cases l with
    | nil => rfl
    | cons s l => rw [List.getLast?_cons_cons]; cases hl : (s :: l).getLast? with
      | none => simp at hl
      | some t => rfl

/-- Any number of runs from the front tile what they cover. -/
theorem Tile.take_any (h : Tile a l b) (n : Nat) :
    Tile a (l.take n) (((l.take n).getLast?.map stop).getD a) ∧ ((l.take n).getLast?.map stop).getD a ≤ b := by
  have hsplit : Tile a (l.take n ++ l.drop n) b := by rwa [List.take_append_drop]
  obtain ⟨m, hfront, hback⟩ := tile_append.mp hsplit
  have hm := hfront.stop_eq
  exact ⟨hm ▸ hfront, hm ▸ hback.le⟩

end Run

def Animation.motionRun (a : Animation) : Run := ⟨a.firstMotion.toInt, a.motionsCount.toInt⟩

def Animation.soundRun (a : Animation) : Run := ⟨a.firstSound.toInt, a.soundsCount.toInt⟩

def Motion.frameRun (m : Motion) : Run := ⟨m.firstFrame.toInt, m.count.toInt⟩

namespace Stock

/-- The tables hang together, and no table has more entries than it may have. -/
structure Partitioned (s : Stock) : Prop where
  motions : Run.Tile 0 (s.animations.toList.map Animation.motionRun) s.motions.size
  frames : Run.Tile 0 (s.motions.toList.map Motion.frameRun) s.frames.size
  owner : ∀ (i : Nat) (a : Animation) (n : Nat) (m : Motion), s.animations[i]? = some a → s.motions[n]? = some m →
    a.motionRun.Has n → m.anim.toInt = i
  sounds : Run.Ascend 0 (s.animations.toList.map Animation.soundRun) s.sounds.size
  unloaded : s.loaded = .nothing → s.animations = #[] ∧ s.motions = #[] ∧ s.frames = #[]
  fewAnimations : s.animations.size ≤ maxAnimations
  fewMotions : s.motions.size ≤ maxMotions
  fewFrames : s.frames.size ≤ maxFrames
  fewSounds : s.sounds.size ≤ maxSounds

theorem partitioned_empty : empty.Partitioned where
  motions := rfl
  frames := rfl
  owner _ _ _ _ h := by cases h
  sounds := Int.le_refl 0
  unloaded _ := ⟨rfl, rfl, rfl⟩
  fewAnimations := Nat.zero_le _
  fewMotions := Nat.zero_le _
  fewFrames := Nat.zero_le _
  fewSounds := Nat.zero_le _

variable {s : Stock}

theorem toInt_small {n k : Nat} (h : n ≤ k) (hk : k < 32768) : (Int16.ofNat n).toInt = n :=
  Int16.toInt_ofNat_of_lt (Nat.lt_of_le_of_lt h hk)

/-! ### A movie is put in -/

namespace Partitioned

/-- How far a scene that is loaded has come has no part in it, and neither have objects. -/
theorem loads (h : s.Partitioned) {loaded : Loaded} (hl : loaded ≠ .nothing) :
    ({ s with loaded } : Stock).Partitioned :=
  { h with unloaded := fun h => absurd h hl }

theorem counts (h : s.Partitioned) (n : Nat) : ({ s with objectsCount := n } : Stock).Partitioned := { h with }

/-- The first movie of a scene finds empty tables already, save for objects. -/
theorem started_cases (h : s.Partitioned) :
    s.started = s ∨ s.loaded = .nothing ∧ s.started = { s with objectsCount := 0, loaded := .background } := by
  unfold Stock.started
  split
  · rename_i hl
    obtain ⟨-, hm, hf⟩ := h.unloaded hl
    exact Or.inr ⟨hl, by rw [hm, hf]⟩
  · exact Or.inl rfl

theorem started (h : s.Partitioned) : s.started.Partitioned := by
  rcases h.started_cases with hs | ⟨-, hs⟩
  · rwa [hs]
  · rw [hs]
    exact (h.counts 0).loads (by decide)

/-- Sounds that belong to no animation do no harm. -/
theorem moreSounds (h : s.Partitioned) (extra : List String) (hfew : s.sounds.size + extra.length ≤ maxSounds) :
    ({ s with sounds := s.sounds ++ extra.toArray } : Stock).Partitioned :=
  have hsize : (s.sounds ++ extra.toArray).size = s.sounds.size + extra.length := by simp
  { h with
    sounds := h.sounds.mono (by simp only [hsize]; omega)
    fewSounds := by simp only [hsize]; exact hfew }

theorem stopped (h : s.Partitioned) {s' : Stock} (hs : s.Stopped s') : s'.Partitioned := by
  rcases hs with rfl | ⟨extra, n, hextra, rfl⟩
  · exact h
  · have hfew : s.sounds.size + extra.length ≤ maxSounds := by
      rcases hextra with rfl | hextra
      · exact h.fewSounds
      · exact hextra
    rw [← started_sounds] at hfew ⊢
    exact (h.started.moreSounds extra hfew).counts n

end Partitioned

theorem size_addMotions (anim : Nat) (bank : SpriteBank) (s : Stock) :
    (s.addMotions anim bank).motions.size = s.motions.size + bank.motions.length ∧
      (s.addMotions anim bank).frames.size = s.frames.size + bank.framesCount := by
  unfold addMotions SpriteBank.framesCount
  generalize bank.motions = l
  induction l generalizing s with
  | nil => exact ⟨rfl, rfl⟩
  | cons frames l ih =>
    obtain ⟨hm, hf⟩ := ih (s.addMotion anim frames)
    constructor
    · rw [List.foldl_cons, hm, List.length_cons]
      simp only [addMotion, Array.size_push]
      omega
    · rw [List.foldl_cons, hf, List.flatten_cons, List.length_append]
      simp only [addMotion, Array.size_append, List.size_toArray]
      omega

/-- Each motion that a bank brings owns its frames. -/
theorem frames_addMotions (anim : Nat) (bank : SpriteBank) (s : Stock)
    (h : Run.Tile 0 (s.motions.toList.map Motion.frameRun) s.frames.size)
    (hfew : s.frames.size + bank.framesCount ≤ maxFrames) :
    Run.Tile 0 ((s.addMotions anim bank).motions.toList.map Motion.frameRun) (s.addMotions anim bank).frames.size := by
  unfold addMotions
  unfold SpriteBank.framesCount at hfew
  generalize bank.motions = l at hfew
  induction l generalizing s with
  | nil => exact h
  | cons frames l ih =>
    rw [List.flatten_cons, List.length_append] at hfew
    have hfirst : (Int16.ofNat s.frames.size).toInt = s.frames.size :=
      toInt_small (by omega : s.frames.size ≤ maxFrames) (by decide)
    have hcount : (Int16.ofNat frames.length).toInt = frames.length :=
      toInt_small (by omega : frames.length ≤ maxFrames) (by decide)
    refine ih (s.addMotion anim frames) ?_ ?_
    · have hnew := h.snoc frames.length
      simpa only [addMotion, Array.toList_push, List.map_append, List.map_cons, List.map_nil, Motion.frameRun,
        hfirst, hcount, Array.size_append, List.size_toArray] using hnew
    · simp only [addMotion, Array.size_append, List.size_toArray]
      omega

/-- A motion is one that was there, or one behind those of the new animation. -/
theorem motion_addMotions (anim : Nat) (bank : SpriteBank) (s : Stock) {n : Nat} {m : Motion}
    (h : (s.addMotions anim bank).motions[n]? = some m) :
    s.motions[n]? = some m ∨ s.motions.size ≤ n ∧ m.anim = Int16.ofNat anim := by
  unfold addMotions at h
  generalize bank.motions = l at h
  induction l generalizing s with
  | nil => exact Or.inl h
  | cons frames l ih =>
    rcases ih (s.addMotion anim frames) h with hm | ⟨hn, hm⟩
    · rw [addMotion, Array.getElem?_push] at hm
      split at hm
      · rename_i hn
        cases hm
        exact Or.inr ⟨Nat.le_of_eq hn.symm, rfl⟩
      · exact Or.inl hm
    · simp only [addMotion, Array.size_push] at hn
      exact Or.inr ⟨Nat.le_of_succ_le hn, hm⟩

namespace Partitioned

/-- No animation has motions that are not there. -/
theorem stop_le (h : s.Partitioned) {i : Nat} {a : Animation} (ha : s.animations[i]? = some a) :
    a.motionRun.stop ≤ s.motions.size := by
  have hrun : (s.animations.toList.map Animation.motionRun)[i]? = some a.motionRun := by
    rw [List.getElem?_map, Array.getElem?_toList, ha]
    rfl
  exact (h.motions.take hrun).2

theorem append (h : s.Partitioned) (name : String) {movie : Movie} {bank : SpriteBank} (hf : s.Fits movie bank) :
    (s.append name movie bank).Partitioned := by
  obtain ⟨hmotions, hframes⟩ := size_addMotions s.animations.size bank s
  have hanim : (Int16.ofNat s.animations.size).toInt = s.animations.size := toInt_small h.fewAnimations (by decide)
  have hfirst : (Int16.ofNat s.motions.size).toInt = s.motions.size := toInt_small h.fewMotions (by decide)
  have hcount : (Int16.ofNat bank.motions.length).toInt = bank.motions.length :=
    toInt_small (Nat.le_trans (Nat.le_add_left _ _) hf.motions) (by decide)
  have hsound : (Int16.ofNat s.sounds.size).toInt = s.sounds.size := toInt_small h.fewSounds (by decide)
  have hsounds : (Int16.ofNat movie.sounds.length).toInt = movie.sounds.length :=
    toInt_small (Nat.le_trans (Nat.le_add_left _ _) hf.sounds) (by decide)
  refine ⟨?motions, ?frames, ?owner, ?sounds, ?unloaded, ?fewAnimations, ?fewMotions, ?fewFrames, ?fewSounds⟩
  case motions =>
    have hnew := h.motions.snoc bank.motions.length
    simpa only [Stock.append, Array.toList_push, List.map_append, List.map_cons, List.map_nil, Animation.motionRun,
      hfirst, hcount, hmotions] using hnew
  case frames => exact frames_addMotions s.animations.size bank s h.frames hf.frames
  case owner =>
    intro i a n m ha hm hn
    rw [Stock.append, Array.getElem?_push] at ha
    rcases motion_addMotions s.animations.size bank s hm with hold | ⟨hlt, hnew⟩
    · have hlt : n < s.motions.size := (Array.getElem?_eq_some_iff.mp hold).1
      split at ha
      · cases ha
        have hn := hn.1
        simp only [Animation.motionRun, hfirst] at hn
        omega
      · exact h.owner i a n m ha hold hn
    · split at ha
      · rename_i hi
        rw [hnew, hanim, hi]
      · have hstop := h.stop_le ha
        have hn := hn.2
        omega
  case sounds =>
    have hnew := h.sounds.snoc movie.sounds.length
    simpa only [Stock.append, Array.toList_push, List.map_append, List.map_cons, List.map_nil, Animation.soundRun,
      hsound, hsounds, Array.size_append, List.size_toArray] using hnew
  case unloaded => exact fun hl => by cases hl
  case fewAnimations =>
    rw [Stock.append, Array.size_push]
    exact hf.animations
  case fewMotions => exact Nat.le_trans (Nat.le_of_eq hmotions) hf.motions
  case fewFrames => exact Nat.le_trans (Nat.le_of_eq hframes) hf.frames
  case fewSounds =>
    simp only [Stock.append, Array.size_append, List.size_toArray]
    exact hf.sounds

/-! ### Movies are dropped -/

theorem toList_take {α : Type} (t : Array α) (k : Nat) : (t.take k).toList = t.toList.take k := by simp

/-- A table up to where a run stops. -/
theorem size_take {α : Type} (t : Array α) {n : Int} (hn : 0 ≤ n) (hle : n ≤ t.size) :
    ((t.take n.toNat).size : Int) = n := by
  have hsize : (t.take n.toNat).size = min n.toNat t.size := by simp
  omega

theorem size_take_le {α : Type} (t : Array α) (k : Nat) : (t.take k).size ≤ t.size := by
  have hsize : (t.take k).size = min k t.size := by simp
  omega

theorem of_take {α : Type} {t : Array α} {k i : Nat} {a : α} (h : (t.take k)[i]? = some a) : t[i]? = some a := by
  rw [← Array.getElem?_toList, toList_take, List.getElem?_take] at h
  split at h
  · rwa [← Array.getElem?_toList]
  · cases h

theorem run_at (f : Animation → Run) {i : Nat} {a : Animation} (ha : s.animations[i]? = some a) :
    (s.animations.toList.map f)[i]? = some (f a) := by
  rw [List.getElem?_map, Array.getElem?_toList, ha]
  rfl

/-- Of the motions that are kept, the frames are kept. -/
theorem frames_take (h : s.Partitioned) (k : Nat) :
    Run.Tile 0 ((s.motions.take k).toList.map Motion.frameRun) (s.frames.take (framesEnd (s.motions.take k))).size := by
  obtain ⟨htile, hle⟩ := h.frames.take_any k
  have hlast : (((s.motions.toList.map Motion.frameRun).take k).getLast?.map Run.stop).getD 0 =
      ((s.motions.take k).back?.map fun m => m.firstFrame.toInt + m.count.toInt).getD 0 := by
    rw [← List.map_take, List.getLast?_map, Option.map_map, ← Array.getLast?_toList, toList_take]
    rfl
  have hnat := htile.le
  rw [hlast] at htile hle hnat
  rw [toList_take, List.map_take]
  unfold framesEnd
  cases hback : (s.motions.take k).back? with
  | none =>
    rw [hback] at htile
    simpa using htile
  | some m =>
    rw [hback, Option.map_some, Option.getD_some] at htile hle hnat
    simpa only [size_take s.frames hnat hle] using htile

theorem keepUpTo (h : s.Partitioned) (anim : Fin s.animations.size) : (s.keepUpTo anim).Partitioned := by
  have hanim : s.animations[anim.val]? = some s.animations[anim] := Array.getElem?_eq_getElem anim.isLt
  obtain ⟨htile, hstop⟩ := h.motions.take (run_at Animation.motionRun hanim)
  obtain ⟨hascend, hsound⟩ := h.sounds.take (run_at Animation.soundRun hanim)
  have hmotions := size_take s.motions htile.le hstop
  have hsounds := size_take s.sounds hascend.le hsound
  refine ⟨?motions, h.frames_take _, ?owner, ?sounds, ?unloaded, ?fewAnimations, ?fewMotions, ?fewFrames, ?fewSounds⟩
  case motions =>
    simp only [Stock.keepUpTo, toList_take, List.map_take]
    exact hmotions ▸ htile
  case owner =>
    intro i a n m ha hm hn
    exact h.owner i a n m (of_take ha) (of_take hm) hn
  case sounds =>
    simp only [Stock.keepUpTo, toList_take, List.map_take]
    exact hsounds ▸ hascend
  case unloaded => exact fun hl => by cases hl
  case fewAnimations => exact Nat.le_trans (size_take_le _ _) h.fewAnimations
  case fewMotions => exact Nat.le_trans (size_take_le _ _) h.fewMotions
  case fewFrames => exact Nat.le_trans (size_take_le _ _) h.fewFrames
  case fewSounds => exact Nat.le_trans (size_take_le _ _) h.fewSounds

/-- A motion is in the run of the animation that it names. -/
theorem named (h : s.Partitioned) {n : Nat} {m : Motion} (hm : s.motions[n]? = some m) :
    ∃ (i : Nat) (a : Animation), m.anim.toInt = i ∧ s.animations[i]? = some a ∧ a.motionRun.Has n := by
  have hn : n < s.motions.size := (Array.getElem?_eq_some_iff.mp hm).1
  obtain ⟨i, r, hr, hhas⟩ := h.motions.exists_has (Int.natCast_nonneg n) (Int.ofNat_lt.mpr hn)
  rw [List.getElem?_map, Array.getElem?_toList, Option.map_eq_some_iff] at hr
  obtain ⟨a, ha, rfl⟩ := hr
  exact ⟨i, a, h.owner i a n m ha hm hhas, ha, hhas⟩

end Partitioned

end Stock

end Adventure
