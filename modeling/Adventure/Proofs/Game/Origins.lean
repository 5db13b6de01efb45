import Adventure.Proofs.Game.Scenes
import Adventure.Proofs.Game.Valid

/-! The animations that objects came with. The slots of objects are told apart by who brought them:
a movie that is loaded brings those behind the slots in use, and what is dropped frees those behind
what is kept. The game does not note this down; for a section about new objects it looks at the motion
that an object's motions are counted from. -/

namespace Adventure

namespace Run

variable {a b n : Int} {l : List Run} {r t : Run} {i j : Nat}

/-- The runs from one of them on tile what is behind where it starts. -/
theorem Tile.drop (h : Tile a l b) (hi : l[i]? = some r) : Tile r.first (l.drop i) b ∧ a ≤ r.first := by
  induction l generalizing a i with
  | nil => cases hi
  | cons s l ih =>
    cases i with
    | zero =>
      cases hi
      exact ⟨h.1 ▸ h, Int.le_of_eq h.1.symm⟩
    | succ i =>
      obtain ⟨rfl, hcount, hl⟩ := h
      obtain ⟨hdrop, hle⟩ := ih hl hi
      exact ⟨hdrop, Int.le_trans (Int.le_add_of_nonneg_right hcount) hle⟩

/-- A run stops before those behind it start. -/
theorem Tile.stop_le_first (h : Tile a l b) (hi : l[i]? = some r) (hj : l[j]? = some t) (hij : i < j) : r.stop ≤ t.first := by
  have hdrop : (l.drop (i + 1))[j - (i + 1)]? = some t := by
    rw [List.getElem?_drop, Nat.add_sub_cancel' hij]
    exact hj
  have hrest : Tile r.stop (l.drop (i + 1)) b := by
    have hsplit := (h.drop hi).1
    rw [List.drop_eq_getElem?_toList_append, hi] at hsplit
    exact hsplit.2.2
  exact (hrest.drop hdrop).2

/-- What is tiled is in one run only. -/
theorem Tile.has_unique (h : Tile a l b) (hi : l[i]? = some r) (hj : l[j]? = some t) (hr : r.Has n) (ht : t.Has n) :
    i = j := by
  obtain hij | hij | hij := Nat.lt_trichotomy i j
  · have hstop := h.stop_le_first hi hj hij
    simp only [Has] at hr ht
    omega
  · exact hij
  · have hstop := h.stop_le_first hj hi hij
    simp only [Has] at hr ht
    omega

/-- Where runs start there is the first of them that is not empty, or the end if they all are. -/
theorem Tile.findIdx?_count (h : Tile a l b) :
    match l.findIdx? (0 < ·.count) with
    | some n => ∃ r, l[n]? = some r ∧ r.Has a
    | none => a = b := by
  induction l generalizing a with
  | nil => exact h
  | cons r l ih =>
    obtain ⟨rfl, hcount, hl⟩ := h
    rw [List.findIdx?_cons]
    by_cases hr : 0 < r.count
    · rw [if_pos (decide_eq_true hr)]
      exact ⟨r, rfl, Int.le_refl _, Int.lt_add_of_pos_right _ hr⟩
    · have hstop : r.stop = r.first := by
        simp only [stop]
        omega
      have hrest := ih (hstop ▸ hl)
      rw [if_neg (by simpa using hr)]
      cases hfind : l.findIdx? (0 < ·.count) with
      | none =>
        rw [hfind] at hrest
        exact hrest
      | some n =>
        rw [hfind] at hrest
        exact hrest

end Run

namespace Stock

variable {s : Stock} {a b : Nat}

/-- The animation has motions. -/
def Moves (s : Stock) (a : Nat) : Prop := ∃ anim, s.animations[a]? = some anim ∧ 0 < anim.motionRun.count

/-- The first animation from the given one on that has motions; if there is none, the given one. -/
def firstMoving (s : Stock) (a : Nat) : Nat :=
  a + ((s.animations.toList.drop a).findIdx? fun anim => 0 < anim.motionRun.count).getD 0

/-- From an animation on, there is none with motions, or a first one. -/
theorem firstMoving_cases (s : Stock) (a : Nat) :
    (s.firstMoving a = a ∧ ∀ b, a ≤ b → ¬s.Moves b) ∨
      a ≤ s.firstMoving a ∧ s.Moves (s.firstMoving a) ∧ ∀ b, a ≤ b → b < s.firstMoving a → ¬s.Moves b := by
  have hdrop (n : Nat) : (s.animations.toList.drop a)[n]? = s.animations[a + n]? := by
    rw [List.getElem?_drop, Array.getElem?_toList]
  unfold firstMoving
  cases hfind : (s.animations.toList.drop a).findIdx? fun anim => 0 < anim.motionRun.count with
  | none =>
    refine Or.inl ⟨rfl, fun b hab ⟨anim, hanim, hcount⟩ => ?_⟩
    rw [← Nat.add_sub_cancel' hab, ← hdrop] at hanim
    have hnone := List.findIdx?_eq_none_iff.mp hfind anim (List.mem_of_getElem? hanim)
    exact absurd hcount (of_decide_eq_false hnone)
  | some n =>
    obtain ⟨hn, hcount, hbefore⟩ := List.findIdx?_eq_some_iff_getElem.mp hfind
    have hanim := hdrop n
    rw [List.getElem?_eq_getElem hn] at hanim
    refine Or.inr ⟨Nat.le_add_right _ _, ⟨_, hanim.symm, of_decide_eq_true hcount⟩,
      fun b hab hb ⟨anim, hanim, hcount⟩ => ?_⟩
    have hlt : b - a < n := Nat.sub_lt_left_of_lt_add hab hb
    rw [← Nat.add_sub_cancel' hab, ← hdrop, List.getElem?_eq_getElem (Nat.lt_trans hlt hn), Option.some.injEq] at hanim
    exact hbefore (b - a) hlt (decide_eq_true (hanim ▸ hcount))

/-- An animation is the first with motions if it has some, or if there is none behind it either. -/
theorem firstMoving_eq_iff : s.firstMoving a = a ↔ s.Moves a ∨ ∀ b, a < b → ¬s.Moves b := by
  obtain ⟨heq, hnone⟩ | ⟨hle, hmoves, hbefore⟩ := s.firstMoving_cases a
  · exact iff_of_true heq (Or.inr fun b hab => hnone b (Nat.le_of_lt hab))
  · constructor
    · exact fun heq => Or.inl (heq ▸ hmoves)
    · rintro (ha | hnone)
      · exact Nat.le_antisymm (Nat.le_of_not_lt fun hlt => hbefore a (Nat.le_refl _) hlt ha) hle
      · exact Nat.le_antisymm (Nat.le_of_not_lt fun hlt => hnone _ hlt hmoves) hle

/-- An animation is new, being the `kept`-th or behind that; or from it on no animation in front of the `kept`-th has
motions, and one behind those has. -/
def PassesForNew (s : Stock) (kept a : Nat) : Prop :=
  kept ≤ a ∨ (∀ b, a ≤ b → b < kept → ¬s.Moves b) ∧ ∃ b, kept ≤ b ∧ s.Moves b

theorem le_firstMoving_iff {kept : Nat} : kept ≤ s.firstMoving a ↔ s.PassesForNew kept a := by
  obtain ⟨heq, hnone⟩ | ⟨hle, hmoves, hbefore⟩ := s.firstMoving_cases a
  · rw [heq]
    refine ⟨Or.inl, ?_⟩
    rintro (h | ⟨-, b, hb, hm⟩)
    · exact h
    · exact Nat.le_of_not_lt fun hlt => hnone b (Nat.le_trans (Nat.le_of_lt hlt) hb) hm
  · constructor
    · exact fun hk => Or.inr ⟨fun b hab hb => hbefore b hab (Nat.lt_of_lt_of_le hb hk), _, hk, hmoves⟩
    · rintro (h | ⟨hfirst, -⟩)
      · exact Nat.le_trans h hle
      · exact Nat.le_of_not_lt fun hlt => hfirst _ hle hlt hmoves

/-- The first motion of an animation is one of the first animation from there on that has motions; if
there is none, it is behind all motions. -/
theorem Partitioned.first_motion (h : s.Partitioned) {anim : Animation} (ha : s.animations[a]? = some anim) :
    0 ≤ anim.firstMotion.toInt ∧
      ((∃ m, s.motions[anim.firstMotion.toInt.toNat]? = some m ∧ m.anim.toInt = s.firstMoving a) ∨
        anim.firstMotion.toInt = s.motions.size ∧ s.firstMoving a = a) := by
  obtain ⟨htile, hfirst⟩ := h.motions.drop (run_at Animation.motionRun ha)
  replace hfirst : 0 ≤ anim.firstMotion.toInt := hfirst
  refine ⟨hfirst, ?_⟩
  have hfind : match (s.animations.toList.drop a).findIdx? fun anim => 0 < anim.motionRun.count with
      | some n => ∃ r, ((s.animations.toList.map Animation.motionRun).drop a)[n]? = some r ∧ r.Has anim.firstMotion.toInt
      | none => anim.firstMotion.toInt = s.motions.size := by
    have hrun := htile.findIdx?_count
    rw [← List.map_drop, List.findIdx?_map] at hrun
    rw [← List.map_drop]
    exact hrun
  cases hn : (s.animations.toList.drop a).findIdx? fun anim => 0 < anim.motionRun.count with
  | none =>
    rw [hn] at hfind
    exact Or.inr ⟨hfind, by rw [firstMoving, hn]; rfl⟩
  | some n =>
    rw [hn] at hfind
    obtain ⟨r, hr, hhas⟩ := hfind
    rw [List.getElem?_drop, List.getElem?_map, Array.getElem?_toList, Option.map_eq_some_iff] at hr
    obtain ⟨other, hother, rfl⟩ := hr
    have hlt : anim.firstMotion.toInt.toNat < s.motions.size := by
      have hstop := h.stop_le hother
      have hin : anim.firstMotion.toInt < other.motionRun.stop := hhas.2
      omega
    refine Or.inl ⟨_, Array.getElem?_eq_getElem hlt, ?_⟩
    rw [firstMoving, hn]
    exact h.owner _ _ _ _ hother (Array.getElem?_eq_getElem hlt) (by rwa [Int.toNat_of_nonneg hfirst])

end Stock

namespace SceneTables

variable {t u v : SceneTables} {m : Int16} {origins : List Nat} {a i : Nat}

/-! ### Where objects start -/

/-- The motion that the motions of an object are counted from. -/
def root (t : SceneTables) (i : Nat) : Int16 := (t.object i).motionInit

theorem root_modifyObject {j : Nat} {f : SceneObject → SceneObject} (hf : ∀ o, (f o).motionInit = o.motionInit) :
    (t.modifyObject j f).root = t.root := by
  funext i
  rw [root, object_modifyObject]
  split
  · exact hf _
  · rfl

theorem root_startMovies (t : SceneTables) : t.startMovies.root = t.root := by
  funext i
  simp only [root, object, startMovies, Vector.getElem?_map]
  cases t.objects[i]? <;> rfl

theorem root_resetUnused (t : SceneTables) : t.resetUnused.root = t.root :=
  same_foldl root _ t fun _ _ => root_modifyObject fun _ => rfl

theorem root_clearBoxes (t : SceneTables) : t.clearBoxes.root = t.root := same_foldl root _ t fun _ _ => rfl

theorem root_dropAll (t : SceneTables) : t.dropAll.root = t.root := by
  rw [dropAll, root_clearBoxes, root_resetUnused]
  rfl

theorem root_keepUpTo (t : SceneTables) (anim : Fin t.animations.size) : (t.keepUpTo anim).root = t.root := by
  rw [keepUpTo, root_clearBoxes, root_resetUnused]
  rfl

theorem root_dropBehind {anim : Int} (h : t.dropBehind anim = .ok u) : u.root = t.root := by
  unfold dropBehind at h
  by_cases hall : anim = -1
  · rw [if_pos hall] at h
    exact Except.ok.inj h ▸ root_dropAll t
  · rw [if_neg hall] at h
    obtain ⟨anim, -, h⟩ := except_bind_eq_ok.mp h
    exact Except.ok.inj h ▸ root_keepUpTo t anim

/-- The objects behind those of `t` start from the motion `m`, the others where they did. -/
structure Plants (m : Int16) (t u : SceneTables) : Prop where
  more : t.objectsCount ≤ u.objectsCount
  roots : ∀ i, u.root i = if t.objectsCount ≤ i ∧ i < u.objectsCount then m else t.root i

theorem Plants.of_same (hcount : u.objectsCount = t.objectsCount) (hroots : u.root = t.root) : Plants m t u where
  more := Nat.le_of_eq hcount.symm
  roots i := by rw [hcount, hroots, if_neg fun h => absurd h.1 (Nat.not_le.mpr h.2)]

theorem Plants.trans (h : Plants m t u) (h' : Plants m u v) : Plants m t v where
  more := Nat.le_trans h.more h'.more
  roots i := by
    have hfirst := h.more
    have hsecond := h'.more
    rw [h'.roots i, h.roots i]
    split_ifs <;> first | rfl | omega

theorem chains_plants (m : Int16) : Chains (Plants m) (Plants m) :=
  Chains.ofOrder (fun _ => .of_same rfl rfl) .trans

theorem plants_addSounds (names : List String) : Within (Plants m) (Plants m) (addSounds names) := fun t =>
  Leads.look (Leads.ite (fun _ => (chains_plants m).stop t) fun _ => .of_same rfl rfl)

theorem plants_addBox (b : MovieBox) : Within (Plants m) (Plants m) (addBox b) := fun t =>
  Leads.ite (fun _ => (chains_plants m).stop t) fun _ =>
    Leads.look (Leads.ite (fun _ => (chains_plants m).stop t) fun _ => .of_same rfl rfl)

theorem plants_addBoxes (l : List MovieBox) : Within (Plants m) (Plants m) (addBoxes l) := by
  induction l with
  | nil => exact (chains_plants m).value _
  | cons b l ih => exact (chains_plants m).bind (plants_addBox b) fun _ => ih

theorem plants_addObject (o : MovieObject) : Within (Plants m) (Plants m) (addObject m o) := by
  refine fun t => Leads.look (Leads.ite (fun _ => (chains_plants m).stop t) fun hroom =>
    Leads.ite (fun _ => (chains_plants m).stop t) fun _ => ⟨Nat.le_succ _, fun i => ?_⟩)
  have hroot : (t.modifyObject t.objectsCount (ofMovieObject o m)).root i = if t.objectsCount = i then m else t.root i := by
    rw [root, object_modifyObject]
    by_cases hi : t.objectsCount = i
    · rw [if_pos ⟨hi, hi ▸ Nat.lt_of_not_le hroom⟩, if_pos hi]
      rfl
    · rw [if_neg fun h => hi h.1, if_neg hi]
      rfl
  refine hroot.trans (if_congr ?_ rfl rfl)
  change _ ↔ t.objectsCount ≤ i ∧ i < t.objectsCount + 1
  omega

theorem plants_addObjects (l : List MovieObject) : Within (Plants m) (Plants m) (addObjects m l) := by
  induction l with
  | nil => exact (chains_plants m).value _
  | cons o l ih => exact (chains_plants m).bind (plants_addObject o) fun _ => ih

theorem plants_addBank (anim : Nat) (bank : SpriteBank) : Within (Plants m) (Plants m) (addBank anim bank) := by
  refine fun t => Leads.look (Leads.ite (fun _ => (chains_plants m).stop t) fun _ =>
    Leads.ite (fun _ => (chains_plants m).stop t) fun _ => .of_same ?_ ?_)
  · exact same_foldl objectsCount _ t fun _ _ => rfl
  · exact same_foldl root _ t fun _ _ => rfl

/-! ### Who brought an object -/

/-- The animations that brought the objects, in the order of their slots: each object is in the range of its animation,
and starts from the first motion of that. -/
structure Rooted (origins : List Nat) (t : SceneTables) : Prop where
  partitioned : t.stock.Partitioned
  inLine : t.stock.InLine
  length : origins.length = t.objectsCount
  brought : ∀ (i a : Nat), origins[i]? = some a → ∃ anim, t.animations[a]? = some anim ∧
    (Stock.objectRun anim).Has i ∧ t.root i = anim.firstMotion

namespace Rooted

theorem empty (h : t.stock = Stock.empty) : Rooted [] t where
  partitioned := h ▸ Stock.partitioned_empty
  inLine := h ▸ Stock.InLine.empty
  length := (congrArg Stock.objectsCount h).symm
  brought _ _ hi := nomatch hi

/-- How far the scene has been loaded makes no difference. -/
theorem aside (h : Rooted origins t) (hroot : u.root = t.root)
    (hstock : u.stock = t.stock ∨ ∃ loaded, loaded ≠ Loaded.nothing ∧ u.stock = { t.stock with loaded }) :
    Rooted origins u := by
  have hanims : u.animations = t.animations := by
    rcases hstock with hs | ⟨_, -, hs⟩ <;> exact congrArg Stock.animations hs
  have hcount : u.objectsCount = t.objectsCount := by
    rcases hstock with hs | ⟨_, -, hs⟩ <;> exact congrArg Stock.objectsCount hs
  refine ⟨?partitioned, ?inLine, h.length.trans hcount.symm, ?brought⟩
  case partitioned =>
    rcases hstock with hs | ⟨_, hl, hs⟩
    · exact hs ▸ h.partitioned
    · exact hs ▸ h.partitioned.loads hl
  case inLine =>
    rcases hstock with hs | ⟨_, -, hs⟩
    · exact hs ▸ h.inLine
    · exact hs ▸ h.inLine.loads _
  case brought =>
    rw [hanims, hroot]
    exact h.brought

/-- The first movie of a scene finds no objects either. -/
theorem started (h : Rooted origins t) : ∃ loaded, t.stock.started = { t.stock with loaded } := by
  rcases h.partitioned.started_cases with hs | ⟨hl, hs⟩
  · exact ⟨t.loaded, hs⟩
  · have hnone : 0 = t.stock.objectsCount := by
      have htile := h.inLine.objects
      rw [(h.partitioned.unloaded hl).1] at htile
      exact Int.ofNat_inj.mp htile
    exact ⟨.background, hs.trans (congrArg (fun n => { t.stock with objectsCount := n, loaded := .background }) hnone)⟩

/-- A movie brings the objects behind those that are there. -/
theorem append (h : Rooted origins t) {name : String} {movie : Movie} {bank : SpriteBank}
    (hfits : t.stock.started.Fits movie bank)
    (hroom : Room t.stock.started.objectsCount movie.objects.length)
    (hstock : v.stock = t.stock.started.append name movie bank) (hroot : u.root = t.root) (hbegun : u.stock = t.stock.started)
    (hplants : Plants (Int16.ofNat u.motions.size) u v) :
    Rooted (origins ++ List.replicate (v.objectsCount - t.objectsCount) t.animations.size) v := by
  have hpartitioned := h.partitioned.started
  have hline := h.inLine.started h.partitioned
  obtain ⟨loaded, hs⟩ := h.started
  rw [hs] at hfits hroom hstock hbegun hpartitioned hline
  replace hroom := hroom hline.few
  have hmore : v.objectsCount = t.objectsCount + movie.objects.length := congrArg Stock.objectsCount hstock
  obtain ⟨new, hanims, hnew, hrun⟩ : ∃ new, v.animations = t.animations.push new ∧
      new.firstMotion = Int16.ofNat u.motions.size ∧ Stock.objectRun new = ⟨t.objectsCount, movie.objects.length⟩ := by
    have hmotions : u.motions = t.motions := congrArg Stock.motions hbegun
    have hfirst : (Int16.ofNat t.objectsCount).toInt = t.objectsCount := Stock.toInt_small h.inLine.few (by decide)
    have hcount : (Int16.ofNat movie.objects.length).toInt = movie.objects.length :=
      Stock.toInt_small (Nat.le_trans (Nat.le_add_left _ _) hroom) (by decide)
    refine ⟨_, congrArg Stock.animations hstock, hmotions ▸ rfl, ?_⟩
    exact congrArg₂ Run.mk hfirst hcount
  refine ⟨?partitioned, ?inLine, ?length, fun i a hi => ?brought⟩
  case partitioned => exact hstock ▸ hpartitioned.append _ hfits
  case inLine => exact hstock ▸ hline.append hroom bank
  case length =>
    rw [List.length_append, List.length_replicate, h.length, hmore]
    omega
  case brought =>
    have hfrom : u.objectsCount = t.objectsCount := congrArg Stock.objectsCount hbegun
    rw [hplants.roots i, hfrom, hroot, hanims]
    by_cases hold : i < origins.length
    · rw [List.getElem?_append_left hold] at hi
      obtain ⟨anim, hanim, hhas, hfirst⟩ := h.brought i a hi
      have ha : a ≠ t.animations.size := Nat.ne_of_lt (Array.getElem?_eq_some_iff.mp hanim).1
      rw [if_neg fun hnew => absurd hold (Nat.not_lt.mpr (h.length ▸ hnew.1)), Array.getElem?_push, if_neg ha]
      exact ⟨anim, hanim, hhas, hfirst⟩
    · rw [List.getElem?_append_right (Nat.le_of_not_lt hold), List.getElem?_replicate, h.length] at hi
      rw [h.length] at hold
      obtain ⟨hi, ha⟩ := Option.ite_none_right_eq_some.mp hi
      cases ha
      rw [if_pos (by omega), Array.getElem?_push_size]
      refine ⟨new, rfl, ?_, hnew.symm⟩
      rw [hrun]
      simp only [Run.Has, Run.stop]
      omega

/-- Objects that are kept are still of the animation that brought them. -/
theorem keepUpTo (h : Rooted origins t) (k : Fin t.animations.size) (hroot : u.root = t.root)
    (hstock : u.stock = t.stock.keepUpTo k) : Rooted (origins.take u.objectsCount) u := by
  have hlast : (t.stock.animations.toList.map Stock.objectRun)[k.val]? = some (Stock.objectRun t.animations[k]) :=
    Stock.Partitioned.run_at _ (Array.getElem?_eq_getElem k.isLt)
  have hcount : u.objectsCount = min (Stock.objectRun t.animations[k]).stop.toNat maxObjects :=
    congrArg Stock.objectsCount hstock
  have hstop : (Stock.objectRun t.animations[k]).stop ≤ t.objectsCount := (h.inLine.objects.take hlast).2
  refine ⟨hstock ▸ h.partitioned.keepUpTo k, hstock ▸ h.inLine.keepUpTo k, ?length, fun i a hi => ?brought⟩
  case length =>
    rw [List.length_take, h.length]
    omega
  case brought =>
    rw [List.getElem?_take] at hi
    obtain ⟨hi, horigin⟩ := Option.ite_none_right_eq_some.mp hi
    obtain ⟨anim, hanim, hhas, hfirst⟩ := h.brought i a horigin
    have hle : a < k + 1 := by
      refine Nat.lt_succ_of_le (Nat.le_of_not_lt fun hlt => ?_)
      have hbehind := h.inLine.objects.stop_le_first hlast (Stock.Partitioned.run_at _ hanim) hlt
      have hin := hhas.1
      omega
    have hkept : u.animations = t.animations.take (k + 1) := congrArg Stock.animations hstock
    refine ⟨anim, ?_, hhas, hroot ▸ hfirst⟩
    rw [hkept, ← Array.getElem?_toList, Stock.Partitioned.toList_take, List.getElem?_take, if_pos hle, Array.getElem?_toList]
    exact hanim

theorem lt_size (h : Rooted origins t) (ha : a ∈ origins) : a < t.animations.size := by
  obtain ⟨i, hi⟩ := List.mem_iff_getElem?.mp ha
  obtain ⟨anim, hanim, -⟩ := h.brought i a hi
  exact (Array.getElem?_eq_some_iff.mp hanim).1

theorem motion_of_getElem? {n : Int} (hn : 0 ≤ n) {motion : Motion} (h : t.motions[n.toNat]? = some motion) :
    t.motion n = .ok motion := by
  obtain ⟨hlt, rfl⟩ := Array.getElem?_eq_some_iff.mp h
  rw [SceneTables.motion, Table.check_of_bounds ⟨hn, by omega⟩]
  rfl

theorem motion_size (t : SceneTables) : t.motion t.motions.size = .error (.index .motions t.motions.size) := by
  rw [SceneTables.motion, Table.check, dif_neg (by omega)]
  rfl

/-- The range that an object is in is that of the animation that brought it. -/
theorem owner?_eq (h : Rooted origins t) (hi : origins[i]? = some a) : t.owner? i = some a := by
  obtain ⟨anim, hanim, hhas, -⟩ := h.brought i a hi
  have hanims : t.animations.toList[a]? = some anim := by rwa [Array.getElem?_toList]
  obtain ⟨ha, rfl⟩ := List.getElem?_eq_some_iff.mp hanims
  refine List.findIdx?_eq_some_iff_getElem.mpr ⟨ha, decide_eq_true hhas, fun b hb hother => ?_⟩
  have hbefore := of_decide_eq_true hother
  have hlt : b < t.animations.size := Nat.lt_trans hb ha
  have hsame := h.inLine.objects.has_unique (Stock.Partitioned.run_at Stock.objectRun hanim)
    (Stock.Partitioned.run_at Stock.objectRun (Array.getElem?_eq_getElem hlt)) hhas hbefore
  omega

/-- The animation that an object is taken for is the first one with motions from that on which brought it. -/
theorem objectAnimation?_eq (h : Rooted origins t) (hi : origins[i]? = some a) :
    t.objectAnimation? i = some (t.stock.firstMoving a : Int) := by
  obtain ⟨anim, hanim, -, hroot⟩ := h.brought i a hi
  replace hroot : (t.object i).motionInit = anim.firstMotion := hroot
  rw [objectAnimation?, hroot]
  obtain ⟨hfirst, ⟨m, hm, hmoving⟩ | ⟨hnone, hsame⟩⟩ := h.partitioned.first_motion hanim
  · rw [motion_of_getElem? hfirst hm, ← hmoving]
  · replace hnone : anim.firstMotion.toInt = t.motions.size := hnone
    rw [hnone, motion_size, h.owner?_eq hi, hsame]
    rfl

end Rooted

end SceneTables

namespace Game

variable {g g' : Game} {m : Int16}

theorem plants_withTables {α : Type} {run : SceneTables.M α} (h : Within (SceneTables.Plants m) (SceneTables.Plants m) run) :
    Within (fun g g' => SceneTables.Plants m g.tables g'.tables) (fun g g' => SceneTables.Plants m g.tables g'.tables)
      (withTables run) := fun g => by
  refine (withTables_leads (h g.tables)).mono (fun _ g' hg => ?_) fun g' hg => ?_
  all_goals
    obtain ⟨t, ht, rfl⟩ := hg
    exact ht

theorem chains_planted (m : Int16) : Chains (fun g g' : Game => SceneTables.Plants m g.tables g'.tables)
    fun g g' => SceneTables.Plants m g.tables g'.tables :=
  Chains.ofOrder (fun g => (SceneTables.chains_plants m).refl g.tables) SceneTables.Plants.trans

/-- The objects of a movie start behind the motions that are there. -/
theorem putMovie_plants (name : String) (movie : Movie) (g : Game) :
    Leads (putMovie name movie) g (fun _ g' => SceneTables.Plants (Int16.ofNat g.tables.motions.size) g.tables g'.tables)
      fun g' => SceneTables.Plants (Int16.ofNat g.tables.motions.size) g.tables g'.tables := by
  refine Leads.look ?_
  dsimp only
  generalize Int16.ofNat g.tables.motions.size = m
  have hT := SceneTables.chains_plants m
  have hC := chains_planted m
  have parts : Within (SceneTables.Plants m) (SceneTables.Plants m) (do
      SceneTables.addSounds movie.sounds; SceneTables.addBoxes movie.boxes; SceneTables.addObjects m movie.objects) :=
    hT.bind (SceneTables.plants_addSounds _) fun _ => hT.bind (SceneTables.plants_addBoxes _) fun _ =>
      SceneTables.plants_addObjects _
  have read (file : String) : Within (fun g g' : Game => SceneTables.Plants m g.tables g'.tables)
      (fun g g' => SceneTables.Plants m g.tables g'.tables) (readResource SpriteBank.decode file) := fun g =>
    (readResource_leads _ file g).mono (fun _ _ h => h.1 ▸ hC.refl g) fun _ h => h ▸ hC.stop g
  have change {f : SceneTables → SceneTables} (hf : ∀ t, SceneTables.Plants m t (f t)) :
      Within (fun g g' : Game => SceneTables.Plants m g.tables g'.tables)
        (fun g g' => SceneTables.Plants m g.tables g'.tables) (onTables f) := fun g => hf g.tables
  refine hC.bind (plants_withTables parts) (fun _ => hC.bind (read _) fun bank =>
    hC.bind (plants_withTables (SceneTables.plants_addBank _ bank)) fun _ => change fun t => ?_) g
  exact .of_same rfl rfl

/-- The first movie of a scene leaves where objects start. -/
theorem root_beginMovies (background : String) : Leaves (fun g : Game => g.tables.root) (beginMovies background) := by
  have hS := Chains.same fun g : Game => g.tables.root
  have read : Leaves (fun g : Game => g.tables.root) (readResource Background.decode background) := fun g =>
    (readResource_leads _ background g).mono (fun _ _ h => h.1 ▸ rfl) fun _ h => h ▸ rfl
  have start : Leaves (fun g : Game => g.tables.root) (onTables SceneTables.startMovies) := fun g =>
    SceneTables.root_startMovies g.tables
  exact hS.look fun _ => .ite (hS.bind (hS.bind read fun _ _ => rfl) fun _ => start) (hS.value _)

/-- A movie that is loaded plants its objects in the tables that a scene starts with. -/
theorem loadMovie_plants (name : String) (g : Game) :
    Leads (loadMovie name) g (fun _ g' => ∃ u : SceneTables, u.root = g.tables.root ∧ u.stock = g.tables.stock.started ∧
      SceneTables.Plants (Int16.ofNat u.motions.size) u g'.tables) fun _ => True := by
  refine Leads.bind ((readResource_leads _ name g).mono (fun movie g₁ h₁ => ?_) fun _ _ => trivial)
  obtain ⟨rfl, -⟩ := h₁
  change Leads (if maxAnimations ≤ g₁.tables.animations.size then _ else
    (do beginMovies movie.backgroundName; putMovie name movie) : M Unit) g₁ _ _
  refine Leads.ite (fun _ => trivial) fun _ => Leads.bind ?_
  have hbegin := (root_beginMovies movie.backgroundName g₁).and (beginMovies_leads movie.backgroundName g₁)
  refine hbegin.mono (fun _ g₂ ⟨hroot, hground⟩ => ?_) fun _ _ => trivial
  refine (putMovie_plants name movie g₂).mono (fun _ g₃ h₃ => ?_) fun _ _ => trivial
  exact ⟨g₂.tables, hroot, congrArg Ground.stock hground, h₃⟩

theorem root_dropBehind {anim : Int} (h : dropBehind anim g = .ok () g') : g'.tables.root = g.tables.root := by
  have hroot : Leads (dropBehind anim) g (fun _ g' => g'.tables.root = g.tables.root) fun _ => True := by
    refine Leads.look (Leads.bind ((Leads.lift _ g).mono (fun t g' ht => ?_) fun _ _ => trivial))
    obtain ⟨rfl, ht⟩ := ht
    exact SceneTables.root_dropBehind ht
  exact hroot.of_ok h

/-- Who brought the objects, in the order of their slots: in empty tables there are none; a movie that is loaded brings those
behind, as the animation behind those that are there; and dropping takes what it takes out of use. Other things can be
done in between as long as the tables of movies are left alone and objects start where they did. -/
inductive Brought : List Nat → Game → Prop
  | empty {g : Game} (h : g.tables.stock = Stock.empty) : Brought [] g
  | load {origins : List Nat} {g g' : Game} {name : String} (hg : Brought origins g) (h : loadMovie name g = .ok () g') :
    Brought (origins ++ List.replicate (g'.tables.objectsCount - g.tables.objectsCount) g.tables.animations.size) g'
  | drop {origins : List Nat} {g g' : Game} {anim : Int} (hg : Brought origins g) (h : dropBehind anim g = .ok () g') :
    Brought (origins.take g'.tables.objectsCount) g'
  | aside {origins : List Nat} {g g' : Game} (hg : Brought origins g) (hroot : g'.tables.root = g.tables.root)
    (hstock : g'.tables.stock = g.tables.stock ∨
      ∃ loaded, loaded ≠ Loaded.nothing ∧ g'.tables.stock = { g.tables.stock with loaded }) : Brought origins g'

namespace Brought

variable {origins : List Nat}

theorem rooted (h : Brought origins g) : g.tables.Rooted origins := by
  induction h with
  | empty h => exact .empty h
  | @load origins g g' name _ h ih =>
    obtain ⟨movie, bank, -, -, hfits, hroom, hground⟩ := (loadMovie_leads name g).of_ok h
    obtain ⟨u, hroot, hbegun, hplants⟩ := (loadMovie_plants name g).of_ok h
    exact ih.append hfits hroom (congrArg Ground.stock hground) hroot hbegun hplants
  | @drop origins g g' anim _ h ih =>
    obtain ⟨s, hground, ⟨-, rfl⟩ | ⟨k, -, rfl⟩⟩ := (dropBehind_leads anim g).of_ok h
    · have hstock : g'.tables.stock = Stock.empty := congrArg Ground.stock hground
      have hcount : g'.tables.objectsCount = 0 := congrArg Stock.objectsCount hstock
      rw [hcount]
      exact .empty hstock
    · exact ih.keepUpTo k (root_dropBehind h) (congrArg Ground.stock hground)
  | aside _ hroot hstock ih => exact ih.aside hroot hstock

theorem expectMovie (h : Brought origins g) : Brought origins (SceneHost.expectMovie g : Game) :=
  h.aside rfl (Or.inr ⟨.background, by decide, rfl⟩)

/-- Movies bring objects of animations behind those that are there. -/
theorem loadMovies {names : List String} (h : Brought origins g)
    (hg : (Description.loadMovies names : M Unit) g = .ok () g') :
    ∃ later, Brought (origins ++ later) g' ∧ ∀ a ∈ later, g.tables.animations.size ≤ a := by
  induction names generalizing origins g with
  | nil =>
    cases hg
    exact ⟨[], by rwa [List.append_nil], fun a ha => nomatch ha⟩
  | cons name names ih =>
    obtain ⟨_, g₁, hname, hrest⟩ := bind_eq_ok.mp hg
    obtain ⟨later, hlater, hbehind⟩ := ih (h.load hname) hrest
    obtain ⟨_, _, -, -, -, -, hground⟩ := (loadMovie_leads name g).of_ok hname
    have hmore : g.tables.animations.size ≤ g₁.tables.animations.size := by
      have hsize : g₁.tables.animations.size = g.tables.stock.started.animations.size + 1 :=
        (congrArg (·.stock.animations.size) hground).trans (Array.size_push _)
      rw [hsize, Stock.started_animations]
      exact Nat.le_succ _
    refine ⟨_, by rwa [List.append_assoc] at hlater, fun a ha => ?_⟩
    obtain ha | ha := List.mem_append.mp ha
    · exact Nat.le_of_eq (List.eq_of_mem_replicate ha).symm
    · exact Nat.le_trans hmore (hbehind a ha)

/-- Dropping leaves the first animations. -/
theorem size_dropBehind {n : Nat} (h : dropBehind ((n : Int) - 1) g = .ok () g') : g'.tables.animations.size = n := by
  obtain ⟨s, hground, ⟨hn, rfl⟩ | ⟨k, hk, rfl⟩⟩ := (dropBehind_leads _ g).of_ok h
  · have hsize : g'.tables.animations.size = 0 := congrArg (·.stock.animations.size) hground
    omega
  · have hsize : g'.tables.animations.size = (g.tables.animations.take (k + 1)).size :=
      congrArg (·.stock.animations.size) hground
    have hlt := k.isLt
    rw [hsize, ← Array.length_toList, Stock.Partitioned.toList_take, List.length_take, Array.length_toList]
    omega

end Brought

end Game

end Adventure
