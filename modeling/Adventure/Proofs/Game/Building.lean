import Adventure.Proofs.Game.Partition
import Adventure.Proofs.Text.Case

/-! The tables that movies make of empty ones. The names of the movies say what is in these
tables, up to the slots of objects, which saved games move; and the tables of the first movies
are what is left when those behind them are dropped. -/

namespace Adventure

namespace Game

/-- Names that are the same up to case stand for the same files. -/
theorem toOption_resource_congr {α : Type} (data : DataDir) (decode : ByteArray → Except ResourceError α) {a b : String}
    (h : Text.lower a = Text.lower b) : (resource data decode a).toOption = (resource data decode b).toOption := by
  have hread : data.read? a = data.read? b := by
    simp only [DataDir.read?, DataDir.resolve?, DataDir.find?, Text.sameName, Text.dataPath_congr h]
  simp only [resource, DataDir.read, hread]
  cases data.read? b <;> rfl

end Game

namespace Stock

variable {d : DataDir} {s t : Stock} {name : String} {names : List String}

/-! ### Loading -/

instance (movie : Movie) (bank : SpriteBank) (s : Stock) : Decidable (s.Fits movie bank) :=
  decidable_of_iff
    (s.animations.size < maxAnimations ∧ s.motions.size + bank.motions.length ≤ maxMotions ∧
      s.frames.size + bank.framesCount ≤ maxFrames ∧ s.sounds.size + movie.sounds.length ≤ maxSounds)
    ⟨fun h => ⟨h.1, h.2.1, h.2.2.1, h.2.2.2⟩, fun h => ⟨h.animations, h.motions, h.frames, h.sounds⟩⟩

/-- A movie of the files behind what is there, if it fits. -/
def load? (d : DataDir) (s : Stock) (name : String) : Option Stock := do
  let movie ← (Game.resource d Movie.decode name).toOption
  let bank ← (Game.resource d SpriteBank.decode (Movie.bankPath name movie.bankName)).toOption
  if s.Fits movie bank then some (s.append name movie bank) else none

/-- Movies one by one. -/
def loadAll? (d : DataDir) (names : List String) (s : Stock) : Option Stock := names.foldlM (load? d) s

theorem load?_eq_some : load? d s name = some t ↔ ∃ movie bank, Game.resource d Movie.decode name = .ok movie ∧
    Game.resource d SpriteBank.decode (Movie.bankPath name movie.bankName) = .ok bank ∧ s.Fits movie bank ∧
    s.append name movie bank = t := by
  have ofOption {α : Type} (e : Except GameError α) (a : α) : e.toOption = some a ↔ e = .ok a := by
    cases e <;> simp [Except.toOption]
  simp only [load?, Option.bind_eq_bind, Option.bind_eq_some_iff, ofOption, Option.ite_none_right_eq_some,
    Option.some.injEq, exists_and_left]

theorem append_congr {name' : String} (h : Text.lower name = Text.lower name') (movie : Movie) (bank : SpriteBank) :
    s.append name movie bank = s.append name' movie bank := by
  simp only [append, h]

/-- The case of letters does not matter in the name of a movie. -/
theorem load?_congr {name' : String} (h : Text.lower name = Text.lower name') : load? d s name = load? d s name' := by
  have hmovie := Game.toOption_resource_congr d Movie.decode h
  have hbank (file : String) := Game.toOption_resource_congr d SpriteBank.decode (Text.folder_congr h file)
  simp only [load?, hmovie, Movie.bankPath, hbank, append_congr h]

theorem loadAll?_congr {names' : List String} (h : names.map Text.lower = names'.map Text.lower) :
    loadAll? d names s = loadAll? d names' s := by
  induction names generalizing names' s with
  | nil =>
    cases names' with
    | nil => rfl
    | cons a l => cases h
  | cons name names ih =>
    cases names' with
    | nil => cases h
    | cons name' names' =>
      obtain ⟨hname, hnames⟩ := List.cons.inj h
      simp only [loadAll?, List.foldlM_cons] at ih ⊢
      simp only [load?_congr hname, ih hnames]

theorem loadAll?_append (l l' : List String) (s : Stock) :
    loadAll? d (l ++ l') s = (loadAll? d l s).bind (loadAll? d l') := List.foldlM_append

theorem loadAll?_snoc (l : List String) (s : Stock) :
    loadAll? d (l ++ [name]) s = (loadAll? d l s).bind fun t => load? d t name := by
  rw [loadAll?_append]
  congr 1
  funext t
  simp [loadAll?]

/-! ### Without the slots of objects -/

def unplaced (a : Animation) : Animation := { a with firstObject := 0 }

/-- What is left without the objects. -/
def bare (s : Stock) : Stock :=
  { s with animations := s.animations.map unplaced, objectsCount := 0, loaded := .nothing }

theorem bare_eq_iff : s.bare = t.bare ↔ s.animations.map unplaced = t.animations.map unplaced ∧
    s.motions = t.motions ∧ s.frames = t.frames ∧ s.sounds = t.sounds := by
  simp only [bare, Stock.mk.injEq, and_true]

theorem addMotions_bare (anim : Nat) (bank : SpriteBank) (s : Stock) :
    (s.addMotions anim bank).bare = s.bare.addMotions anim bank := by
  unfold addMotions
  generalize bank.motions = l
  induction l generalizing s with
  | nil => rfl
  | cons frames l ih => exact ih (s.addMotion anim frames)

theorem append_bare (name : String) (movie : Movie) (bank : SpriteBank) (s : Stock) :
    (s.append name movie bank).bare = (s.bare.append name movie bank).bare := by
  have hsize : s.bare.animations.size = s.animations.size := Array.size_map
  have hadd : ((s.addMotions s.animations.size bank).bare.motions, (s.addMotions s.animations.size bank).bare.frames) =
      ((s.bare.addMotions s.bare.animations.size bank).motions, (s.bare.addMotions s.bare.animations.size bank).frames) := by
    rw [addMotions_bare, hsize]
  obtain ⟨hmotions, hframes⟩ := Prod.mk.inj hadd
  refine bare_eq_iff.mpr ⟨?_, hmotions, hframes, rfl⟩
  simp only [append, Array.map_push]
  simp only [bare, Array.map_map]
  rfl

theorem fits_bare (movie : Movie) (bank : SpriteBank) (s : Stock) : s.bare.Fits movie bank ↔ s.Fits movie bank := by
  have hsize : s.bare.animations.size = s.animations.size := Array.size_map
  constructor
  · exact fun h => ⟨hsize ▸ h.animations, h.motions, h.frames, h.sounds⟩
  · exact fun h => ⟨hsize ▸ h.animations, h.motions, h.frames, h.sounds⟩

/-- What a movie adds has nothing to do with the objects that are there. -/
theorem load?_bare {u : Stock} (h : s.bare = t.bare) (hs : load? d s name = some u) :
    ∃ v, load? d t name = some v ∧ u.bare = v.bare := by
  obtain ⟨movie, bank, hmovie, hbank, hfits, rfl⟩ := load?_eq_some.mp hs
  rw [← fits_bare, h, fits_bare] at hfits
  refine ⟨_, load?_eq_some.mpr ⟨movie, bank, hmovie, hbank, hfits, rfl⟩, ?_⟩
  rw [append_bare, h, ← append_bare]

theorem size_of_bare (h : s.bare = t.bare) : s.animations.size = t.animations.size := by
  have hs := congrArg (·.animations.size) h
  simpa only [bare, Array.size_map] using hs

theorem keepUpTo_bare (h : s.bare = t.bare) (i : Fin s.animations.size) :
    (s.keepUpTo i).bare = (t.keepUpTo (i.cast (size_of_bare h))).bare := by
  obtain ⟨hanims, hmotions, hframes, hsounds⟩ := bare_eq_iff.mp h
  have hlt : i.val < t.animations.size := (i.cast (size_of_bare h)).isLt
  have hanim : unplaced s.animations[i.val] = unplaced t.animations[i.val] := by
    have hi : (s.animations.map unplaced)[i.val]? = (t.animations.map unplaced)[i.val]? := by rw [hanims]
    simpa only [Array.getElem?_map, Array.getElem?_eq_getElem i.isLt, Array.getElem?_eq_getElem hlt, Option.map_some,
      Option.some.injEq] using hi
  have htake : (s.animations.take (i + 1)).map unplaced = (t.animations.take (i + 1)).map unplaced := by
    simp only [Array.take_eq_extract, Array.map_extract, hanims]
  simp only [unplaced, Animation.mk.injEq] at hanim
  obtain ⟨-, hfirst, hcount, -, -, hsound, hsoundsCount, -, -⟩ := hanim
  simp only [bare_eq_iff, keepUpTo, hmotions, hframes, hsounds, Fin.getElem_fin, Fin.val_cast, hfirst, hcount, hsound,
    hsoundsCount, htake, and_self]

/-! ### The first movies -/

/-- The tables open with those of `s`. -/
structure Front (s t : Stock) : Prop where
  animations : s.animations.toList <+: t.animations.toList
  motions : s.motions.toList <+: t.motions.toList
  frames : s.frames.toList <+: t.frames.toList
  sounds : s.sounds.toList <+: t.sounds.toList

theorem Front.refl (s : Stock) : s.Front s :=
  ⟨List.prefix_refl _, List.prefix_refl _, List.prefix_refl _, List.prefix_refl _⟩

theorem Front.trans {u : Stock} (h : s.Front t) (h' : t.Front u) : s.Front u :=
  ⟨h.animations.trans h'.animations, h.motions.trans h'.motions, h.frames.trans h'.frames, h.sounds.trans h'.sounds⟩

theorem front_addMotions (anim : Nat) (bank : SpriteBank) (s : Stock) : s.Front (s.addMotions anim bank) := by
  unfold addMotions
  generalize bank.motions = l
  induction l generalizing s with
  | nil => exact Front.refl s
  | cons frames l ih =>
    have hstep : s.Front (s.addMotion anim frames) := by
      refine ⟨List.prefix_refl _, ?_, ?_, List.prefix_refl _⟩
      · simp only [addMotion, Array.toList_push]
        exact List.prefix_append _ _
      · simp only [addMotion, Array.toList_append]
        exact List.prefix_append _ _
    exact hstep.trans (ih (s.addMotion anim frames))

theorem front_append (name : String) (movie : Movie) (bank : SpriteBank) (s : Stock) :
    s.Front (s.append name movie bank) := by
  have hadd := front_addMotions s.animations.size bank s
  refine ⟨?_, hadd.motions, hadd.frames, ?_⟩
  · simp only [append, Array.toList_push]
    exact List.prefix_append _ _
  · simp only [append, Array.toList_append]
    exact List.prefix_append _ _

theorem front_loadAll? (h : loadAll? d names s = some t) : s.Front t := by
  induction names generalizing s with
  | nil => cases h; exact Front.refl _
  | cons name names ih =>
    obtain ⟨u, hu, ht⟩ := Option.bind_eq_some_iff.mp h
    obtain ⟨movie, bank, -, -, -, rfl⟩ := load?_eq_some.mp hu
    exact (front_append _ movie bank _).trans (ih ht)

/-- What `s` opens with is cut off by its length. -/
theorem take_of_front {α : Type} {a b : Array α} (h : a.toList <+: b.toList) : b.take a.size = a := by
  apply Array.toList_inj.mp
  rw [Partitioned.toList_take, ← Array.length_toList]
  exact (List.prefix_iff_eq_take.mp h).symm

/-- The animation of a movie that is put in ends where the tables end. -/
theorem append_last (name : String) {movie : Movie} {bank : SpriteBank} (hs : s.Partitioned) (hfits : s.Fits movie bank) :
    ∃ a, (s.append name movie bank).animations[s.animations.size]? = some a ∧
      a.motionRun.stop = (s.append name movie bank).motions.size ∧
      a.soundRun.stop = (s.append name movie bank).sounds.size := by
  refine ⟨_, Array.getElem?_push_size, ?motions, ?sounds⟩
  case motions =>
    have hfirst : (Int16.ofNat s.motions.size).toInt = s.motions.size := toInt_small hs.fewMotions (by decide)
    have hcount : (Int16.ofNat bank.motions.length).toInt = bank.motions.length :=
      toInt_small (Nat.le_trans (Nat.le_add_left _ _) hfits.motions) (by decide)
    have hsize : (s.append name movie bank).motions.size = s.motions.size + bank.motions.length :=
      (size_addMotions s.animations.size bank s).1
    simp only [hsize, Animation.motionRun, Run.stop, hfirst, hcount, Int.natCast_add]
  case sounds =>
    have hfirst : (Int16.ofNat s.sounds.size).toInt = s.sounds.size := toInt_small hs.fewSounds (by decide)
    have hcount : (Int16.ofNat movie.sounds.length).toInt = movie.sounds.length :=
      toInt_small (Nat.le_trans (Nat.le_add_left _ _) hfits.sounds) (by decide)
    have hsize : (s.append name movie bank).sounds.size = s.sounds.size + movie.sounds.length := by
      simp only [append, Array.size_append, List.size_toArray]
    simp only [hsize, Animation.soundRun, Run.stop, hfirst, hcount, Int.natCast_add]

/-- The frames of all motions are all frames. -/
theorem Partitioned.frames_stop (hs : s.Partitioned) : framesEnd s.motions = s.frames.size := by
  have hstop := hs.frames.stop_eq
  rw [List.getLast?_map, Option.map_map, Array.getLast?_toList] at hstop
  unfold framesEnd
  cases hback : s.motions.back? with
  | none =>
    rw [hback] at hstop
    exact (Int.ofNat_inj.mp hstop).symm
  | some m =>
    rw [hback] at hstop
    exact (congrArg Int.toNat hstop).symm

/-- Dropping what is behind the movie that was put in last leaves the tables as they were then. -/
theorem keepUpTo_append {movie : Movie} {bank : SpriteBank} (hs : s.Partitioned) (hfits : s.Fits movie bank)
    (h : (s.append name movie bank).Front t) (i : Fin t.animations.size) (hi : i.val = s.animations.size) :
    (t.keepUpTo i).bare = (s.append name movie bank).bare := by
  obtain ⟨a, ha, hmotions, hsounds⟩ := append_last name hs hfits
  have hframes := (hs.append name hfits).frames_stop
  have hanim : t.animations[i.val]? = some a := by
    rw [← hi, ← Array.getElem?_toList, List.getElem?_eq_some_iff] at ha
    obtain ⟨hlt, ha⟩ := ha
    rw [← Array.getElem?_toList, List.prefix_iff_getElem?.mp h.animations i.val hlt, ha]
  rw [Array.getElem?_eq_getElem i.isLt, Option.some.injEq] at hanim
  have hsize : i.val + 1 = (s.append name movie bank).animations.size := by rw [hi, append, Array.size_push]
  simp only [Animation.motionRun, Animation.soundRun, Run.stop] at hmotions hsounds
  have hcut := take_of_front h.motions
  refine bare_eq_iff.mpr ⟨?animations, ?motions, ?frames, ?sounds⟩
  all_goals simp only [keepUpTo, Fin.getElem_fin, hanim, hmotions, hsounds, hsize, Int.toNat_natCast, hcut]
  case animations => rw [take_of_front h.animations]
  case frames => exact (congrArg t.frames.take hframes).trans (take_of_front h.frames)
  case sounds => exact take_of_front h.sounds

/-! ### Tables that movies have built -/

theorem partitioned_loadAll? (hs : s.Partitioned) (h : loadAll? d names s = some t) : t.Partitioned := by
  induction names generalizing s with
  | nil => cases h; exact hs
  | cons name names ih =>
    obtain ⟨u, hu, ht⟩ := Option.bind_eq_some_iff.mp h
    obtain ⟨movie, bank, -, -, hfits, rfl⟩ := load?_eq_some.mp hu
    exact ih (hs.append _ hfits) ht

/-- The names of the animations. -/
def titles (s : Stock) : List String := s.animations.toList.map Animation.name

theorem titles_append (name : String) (movie : Movie) (bank : SpriteBank) (s : Stock) :
    (s.append name movie bank).titles = s.titles ++ [Text.lower name] := by
  simp only [titles, append, Array.toList_push, List.map_append, List.map_cons, List.map_nil]

theorem titles_bare (s : Stock) : s.bare.titles = s.titles := by
  simp only [titles, bare, Array.toList_map, List.map_map]
  rfl

theorem titles_loadAll? (h : loadAll? d names s = some t) : t.titles = s.titles ++ names.map Text.lower := by
  induction names generalizing s with
  | nil => cases h; exact (List.append_nil _).symm
  | cons name names ih =>
    obtain ⟨u, hu, ht⟩ := Option.bind_eq_some_iff.mp h
    obtain ⟨movie, bank, -, -, -, rfl⟩ := load?_eq_some.mp hu
    rw [ih ht, titles_append, List.append_assoc]
    rfl

/-- The tables are what the movies of these names make of empty ones, up to the slots of objects. -/
def Built (d : DataDir) (names : List String) (s : Stock) : Prop :=
  ∃ b, loadAll? d names empty = some b ∧ s.bare = b.bare

namespace Built

theorem none (h : s.bare = empty.bare) : Built d [] s := ⟨empty, rfl, h⟩

theorem titles_eq (h : Built d names s) : s.titles = names.map Text.lower := by
  obtain ⟨b, hb, hs⟩ := h
  rw [← titles_bare, hs, titles_bare, titles_loadAll? hb]
  rfl

theorem size_eq (h : Built d names s) : s.animations.size = names.length := by
  have hlength := congrArg List.length h.titles_eq
  simpa only [titles, List.length_map, Array.length_toList] using hlength

/-- The names say what is in the tables. -/
theorem unique (hs : Built d names s) (ht : Built d names t) : s.bare = t.bare := by
  obtain ⟨b, hb, hs⟩ := hs
  obtain ⟨c, hc, ht⟩ := ht
  rw [hs, ht, Option.some.inj (hb.symm.trans hc)]

theorem congr {names' : List String} (h : Built d names s) (hn : names.map Text.lower = names'.map Text.lower) :
    Built d names' s := by
  obtain ⟨b, hb, hs⟩ := h
  exact ⟨b, loadAll?_congr hn ▸ hb, hs⟩

theorem load (h : Built d names s) (ht : load? d s name = some t) : Built d (names ++ [name]) t := by
  obtain ⟨b, hb, hs⟩ := h
  obtain ⟨c, hc, htc⟩ := load?_bare hs ht
  exact ⟨c, by rw [loadAll?_snoc, hb]; exact hc, htc⟩

/-- Dropping what is behind an animation leaves what the movies up to it make. -/
theorem keepUpTo (h : Built d names s) (i : Fin s.animations.size) : Built d (names.take (i + 1)) (s.keepUpTo i) := by
  have hi : i.val < names.length := h.size_eq ▸ i.isLt
  obtain ⟨b, hb, hs⟩ := h
  have hsplit : names = names.take i ++ ([names[i.val]] ++ names.drop (i + 1)) := by
    rw [← List.append_assoc, List.take_append_getElem hi, List.take_append_drop]
  have hall : loadAll? d (names.take i ++ ([names[i.val]] ++ names.drop (i + 1))) empty = some b := hsplit ▸ hb
  rw [loadAll?_append] at hall
  obtain ⟨b₀, hb₀, hrest⟩ := Option.bind_eq_some_iff.mp hall
  obtain ⟨b₁, hb₁, hb⟩ := Option.bind_eq_some_iff.mp hrest
  refine ⟨b₁, ?_, ?_⟩
  · rw [← List.take_append_getElem hi, loadAll?_snoc, hb₀]
    exact hb₁
  · obtain ⟨movie, bank, -, -, hfits, rfl⟩ := load?_eq_some.mp hb₁
    have hsize : b₀.animations.size = i.val := by
      have hlength := congrArg List.length (titles_loadAll? hb₀)
      simp only [titles, empty, List.length_append, List.length_map, Array.length_toList, List.length_take,
        List.map_nil, List.length_nil] at hlength
      omega
    rw [keepUpTo_bare hs]
    exact keepUpTo_append (partitioned_loadAll? partitioned_empty hb₀) hfits (front_loadAll? hb) _ hsize.symm

theorem counts (h : Built d names s) (n : Nat) : Built d names { s with objectsCount := n } := h

theorem loads (h : Built d names s) (loaded : Loaded) : Built d names { s with loaded } := h

theorem started (h : Built d names s) (hs : s.Partitioned) : Built d names s.started := by
  rcases hs.started_cases with hs | ⟨-, hs⟩
  · rwa [hs]
  · rw [hs]
    exact (h.counts 0).loads _

end Built

/-! ### Where the objects start -/

def objectRun (a : Animation) : Run := ⟨a.firstObject.toInt, a.objectsCount.toInt⟩

/-- The objects of the animations are next to each other, and there are no others. -/
structure InLine (s : Stock) : Prop where
  objects : Run.Tile 0 (s.animations.toList.map objectRun) s.objectsCount
  few : s.objectsCount ≤ maxObjects

namespace InLine

theorem empty : Stock.empty.InLine := ⟨rfl, Nat.zero_le _⟩

theorem loads (h : s.InLine) (loaded : Loaded) : ({ s with loaded } : Stock).InLine := ⟨h.objects, h.few⟩

theorem started (h : s.InLine) (hs : s.Partitioned) : s.started.InLine := by
  rcases hs.started_cases with hs' | ⟨hl, hs'⟩
  · rwa [hs']
  · rw [hs']
    refine ⟨?_, Nat.zero_le _⟩
    simp only [(hs.unloaded hl).1]
    rfl

theorem append {movie : Movie} (h : s.InLine) (hfew : s.objectsCount + movie.objects.length ≤ maxObjects) (bank : SpriteBank) :
    (s.append name movie bank).InLine := by
  refine ⟨?_, hfew⟩
  have hfirst : (Int16.ofNat s.objectsCount).toInt = s.objectsCount := toInt_small h.few (by decide)
  have hcount : (Int16.ofNat movie.objects.length).toInt = movie.objects.length :=
    toInt_small (Nat.le_trans (Nat.le_add_left _ _) hfew) (by decide)
  have hnew := h.objects.snoc movie.objects.length
  simpa only [Stock.append, Array.toList_push, List.map_append, List.map_cons, List.map_nil, objectRun, hfirst, hcount]
    using hnew

theorem keepUpTo (h : s.InLine) (i : Fin s.animations.size) : (s.keepUpTo i).InLine := by
  have hanim : s.animations[i.val]? = some s.animations[i] := Array.getElem?_eq_getElem i.isLt
  obtain ⟨htile, hle⟩ := h.objects.take (Partitioned.run_at objectRun hanim)
  have hnat := htile.le
  have hfew := h.few
  have hcount : ((s.keepUpTo i).objectsCount : Int) = (objectRun s.animations[i]).stop := by
    simp only [Stock.keepUpTo]
    simp only [Run.stop, objectRun] at hnat hle ⊢
    omega
  refine ⟨?_, Nat.min_le_right _ _⟩
  rw [hcount]
  simpa only [Stock.keepUpTo, Partitioned.toList_take, List.map_take] using htile

theorem eq_of_unplaced {l l' : List Animation} {a b c : Int} (h : l.map unplaced = l'.map unplaced)
    (hl : Run.Tile a (l.map objectRun) b) (hl' : Run.Tile a (l'.map objectRun) c) : l = l' := by
  induction l generalizing l' a with
  | nil =>
    cases l' with
    | nil => rfl
    | cons y l' => cases h
  | cons x l ih =>
    cases l' with
    | nil => cases h
    | cons y l' =>
      obtain ⟨hx, -, hrest⟩ := hl
      obtain ⟨hy, -, hrest'⟩ := hl'
      obtain ⟨hhead, htail⟩ := List.cons.inj h
      have hfirst : x.firstObject = y.firstObject := Int16.toInt_inj.mp (hx.trans hy.symm)
      have hxy : x = y := calc
        x = { unplaced x with firstObject := x.firstObject } := rfl
        _ = { unplaced y with firstObject := y.firstObject } := by rw [hhead, hfirst]
        _ = y := rfl
      subst hxy
      rw [ih htail hrest hrest']

/-- In line, the rest of the tables says where objects start. -/
theorem animations_eq (hs : s.InLine) (ht : t.InLine) (h : s.bare = t.bare) : s.animations = t.animations := by
  have hmap := congrArg Array.toList (bare_eq_iff.mp h).1
  rw [Array.toList_map, Array.toList_map] at hmap
  exact Array.toList_inj.mp (eq_of_unplaced hmap hs.objects ht.objects)

end InLine

end Stock

end Adventure
