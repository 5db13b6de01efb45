import Adventure.Proofs.Game.Ground
import Adventure.Proofs.Game.Sorting

/-! Drawing from the back to the front. The slots are sorted by depth, and the boxes, which are
not, are put between the objects by their depth: each covers the objects that are not in front of
it, and is drawn once if there are any. -/

namespace Adventure

namespace Layer

/-- The slot and the rank of an object that is drawn. -/
def place? : Layer → Option (Nat × Nat)
  | object rank slot => some (slot, rank)
  | box _ => none

def box? : Layer → Option SceneBox
  | object _ _ => none
  | box b => some b

/-- The first of two layers may be drawn before the second. Objects go from the back to the front;
a box comes behind the objects that it covers and before those that are in front of it. -/
def Before (z : Nat → Int16) : Layer → Layer → Prop
  | object _ i, object _ j => z j ≤ z i
  | object _ i, box b => b.z ≤ z i
  | box b, object _ i => z i < b.z
  | box _, box _ => True

/-- An object of a rank that is left out. -/
def isLeftOut (leaveOut : Nat → Bool) : Layer → Bool
  | object rank _ => leaveOut rank
  | box _ => false

/-- The slots of the objects, in the order in which they are drawn. -/
def slots (l : List Layer) : List Nat := (l.filterMap place?).map Prod.fst

def boxes (l : List Layer) : List SceneBox := l.filterMap box?

section

variable (leaveOut : Nat → Bool) (rank slot : Nat) (b : SceneBox) (l : List Layer)

@[simp] theorem place?_object : (object rank slot).place? = some (slot, rank) := rfl

@[simp] theorem place?_box : (box b).place? = none := rfl

@[simp] theorem box?_object : (object rank slot).box? = none := rfl

@[simp] theorem box?_box : (box b).box? = some b := rfl

@[simp] theorem isLeftOut_object : (object rank slot).isLeftOut leaveOut = leaveOut rank := rfl

@[simp] theorem isLeftOut_box : (box b).isLeftOut leaveOut = false := rfl

theorem places_kept : (l.filter (!isLeftOut leaveOut ·)).filterMap place? =
    (l.filterMap place?).filter (!leaveOut ·.2) := by
  induction l with
  | nil => rfl
  | cons a l ih =>
    cases a with
    | object rank slot => by_cases h : leaveOut rank <;> simp [h, ih]
    | box b => simp [List.filterMap_cons, ih]

theorem boxes_kept : boxes (l.filter (!isLeftOut leaveOut ·)) = boxes l := by
  unfold boxes
  induction l with
  | nil => rfl
  | cons a l ih =>
    cases a with
    | object rank slot => by_cases h : leaveOut rank <;> simp [List.filterMap_cons, h, ih]
    | box b => simp [ih]

end

end Layer

namespace SceneTables

variable {t : SceneTables}

/-! ### Layers -/

/-- The boxes of the scene that cover objects. -/
def coverBoxes (t : SceneTables) : List SceneBox := (ownGroups.flatMap t.groupBoxes).filter (·.state = 2)

def depth (t : SceneTables) (slot : Nat) : Int16 := (t.object slot).z

theorem mem_covers {behind : Int16} {before : Option Int16} {a : Layer} (h : a ∈ t.covers behind before) :
    ∃ b, a = .box b ∧ b.z ≤ behind ∧ before.all (· < b.z) := by
  obtain ⟨b, hb, rfl⟩ := List.mem_map.mp h
  obtain ⟨-, hcovers⟩ := List.mem_filter.mp hb
  simp only [decide_eq_true_eq] at hcovers
  exact ⟨b, rfl, hcovers.2.1, hcovers.2.2⟩

theorem places_covers (behind : Int16) (before : Option Int16) : (t.covers behind before).filterMap Layer.place? = [] := by
  rw [covers, List.filterMap_map]
  exact List.filterMap_eq_nil_iff.mpr fun _ _ => rfl

theorem boxes_covers (behind : Int16) (before : Option Int16) :
    Layer.boxes (t.covers behind before) = t.coverBoxes.filter fun b => b.z ≤ behind ∧ before.all (· < b.z) := by
  rw [Layer.boxes, covers, List.filterMap_map]
  change List.filterMap some _ = _
  rw [List.filterMap_some, coverBoxes, List.filter_filter]
  refine List.filter_congr fun b _ => ?_
  simp only [Bool.decide_and, Bool.and_comm]

/-- The objects are drawn as they come. -/
theorem places_layersFrom (previous : Option Int16) (l : List (Nat × Nat)) :
    (t.layersFrom previous l).filterMap Layer.place? = l := by
  induction l generalizing previous with
  | nil =>
    cases previous with
    | none => rfl
    | some p => exact places_covers p none
  | cons s l ih =>
    cases previous with
    | none => rw [layersFrom, List.filterMap_cons_some (Layer.place?_object _ _), ih]
    | some p =>
      rw [layersFrom, List.filterMap_append, places_covers, List.nil_append,
        List.filterMap_cons_some (Layer.place?_object _ _), ih]

theorem mem_of_object {previous : Option Int16} {l : List (Nat × Nat)} {rank slot : Nat}
    (h : Layer.object rank slot ∈ t.layersFrom previous l) : (slot, rank) ∈ l := by
  rw [← places_layersFrom (t := t) previous l]
  exact List.mem_filterMap.mpr ⟨_, h, rfl⟩

/-- Behind an object of depth `p` the boxes that cover it are drawn, each once. -/
theorem boxes_layersFrom {p : Int16} {l : List (Nat × Nat)}
    (hl : (l.map Prod.fst).Pairwise fun i j => t.depth j ≤ t.depth i) (hp : ∀ s ∈ l, t.depth s.1 ≤ p) :
    (Layer.boxes (t.layersFrom (some p) l)).Perm (t.coverBoxes.filter (·.z ≤ p)) := by
  induction l generalizing p with
  | nil =>
    rw [layersFrom, boxes_covers]
    simp only [Option.all_none, and_true]
    exact .rfl
  | cons s l ih =>
    obtain ⟨hs, hl⟩ := List.pairwise_cons.mp hl
    have hrest := ih hl fun r hr => hs r.1 (List.mem_map_of_mem hr)
    have hle : t.depth s.1 ≤ p := hp s List.mem_cons_self
    -- the boxes up to `p` are those in front of the object and those that cover it
    have hsplit := List.filter_append_perm (fun b => decide (t.depth s.1 < b.z)) (t.coverBoxes.filter (·.z ≤ p))
    rw [List.filter_filter, List.filter_filter] at hsplit
    have hfront : t.coverBoxes.filter (fun b => decide (t.depth s.1 < b.z) && decide (b.z ≤ p)) =
        Layer.boxes (t.covers p (some (t.depth s.1))) := by
      rw [boxes_covers]
      refine List.filter_congr fun b _ => ?_
      simp only [Option.all_some, decide_eq_true_eq, Bool.decide_and, Bool.and_comm]
    have hcovered : t.coverBoxes.filter (fun b => (!decide (t.depth s.1 < b.z)) && decide (b.z ≤ p)) =
        t.coverBoxes.filter (·.z ≤ t.depth s.1) := by
      refine List.filter_congr fun b _ => ?_
      rw [Bool.eq_iff_iff]
      simp only [Bool.and_eq_true, Bool.not_eq_true', decide_eq_false_iff_not, Int16.not_lt, decide_eq_true_eq]
      exact ⟨fun h => h.1, fun h => ⟨h, Int16.le_trans h hle⟩⟩
    rw [hfront, hcovered] at hsplit
    have hboxes : Layer.boxes (t.layersFrom (some p) (s :: l)) =
        Layer.boxes (t.covers p (some (t.depth s.1))) ++ Layer.boxes (t.layersFrom (some (t.depth s.1)) l) := by
      rw [layersFrom, Layer.boxes, List.filterMap_append, List.filterMap_cons_none (Layer.box?_object _ _)]
      rfl
    rw [hboxes]
    exact (hrest.append_left _).trans hsplit

/-- A box is drawn, once, if it covers one of the objects. -/
theorem boxes_layersFrom_none {l : List (Nat × Nat)} (hl : (l.map Prod.fst).Pairwise fun i j => t.depth j ≤ t.depth i) :
    (Layer.boxes (t.layersFrom none l)).Perm (t.coverBoxes.filter fun b => ∃ s ∈ l, b.z ≤ t.depth s.1) := by
  cases l with
  | nil =>
    have hnone : t.coverBoxes.filter (fun b => ∃ s ∈ ([] : List (Nat × Nat)), b.z ≤ t.depth s.1) = [] :=
      List.filter_eq_nil_iff.mpr fun b _ => by simp
    rw [hnone]
    exact .nil
  | cons s l =>
    obtain ⟨hs, hl⟩ := List.pairwise_cons.mp hl
    have hle : ∀ r ∈ l, t.depth r.1 ≤ t.depth s.1 := fun r hr => hs r.1 (List.mem_map_of_mem hr)
    have hfirst : t.coverBoxes.filter (fun b => ∃ r ∈ s :: l, b.z ≤ t.depth r.1) = t.coverBoxes.filter (·.z ≤ t.depth s.1) := by
      refine List.filter_congr fun b _ => decide_eq_decide.mpr ⟨?_, fun h => ⟨s, List.mem_cons_self, h⟩⟩
      rintro ⟨r, hr, hb⟩
      rcases List.mem_cons.mp hr with rfl | hr
      · exact hb
      · exact Int16.le_trans hb (hle r hr)
    rw [hfirst]
    exact boxes_layersFrom hl hle

theorem le_of_box {p : Int16} {l : List (Nat × Nat)} {b : SceneBox}
    (hl : (l.map Prod.fst).Pairwise fun i j => t.depth j ≤ t.depth i) (hp : ∀ s ∈ l, t.depth s.1 ≤ p)
    (hb : Layer.box b ∈ t.layersFrom (some p) l) : b.z ≤ p := by
  have hmem : b ∈ Layer.boxes (t.layersFrom (some p) l) := List.mem_filterMap.mpr ⟨_, hb, rfl⟩
  rw [(boxes_layersFrom hl hp).mem_iff] at hmem
  exact of_decide_eq_true (List.mem_filter.mp hmem).2

/-- Sorted objects and the boxes between them are drawn by depth. -/
theorem before_layersFrom {previous : Option Int16} {l : List (Nat × Nat)}
    (hl : (l.map Prod.fst).Pairwise fun i j => t.depth j ≤ t.depth i) (hp : ∀ p ∈ previous, ∀ s ∈ l, t.depth s.1 ≤ p) :
    (t.layersFrom previous l).Pairwise (Layer.Before t.depth) := by
  have boxesFirst (behind : Int16) (before : Option Int16) : (t.covers behind before).Pairwise (Layer.Before t.depth) := by
    refine List.pairwise_of_forall_mem_list fun a ha b hb => ?_
    obtain ⟨_, rfl, -⟩ := mem_covers ha
    obtain ⟨_, rfl, -⟩ := mem_covers hb
    trivial
  induction l generalizing previous with
  | nil =>
    cases previous with
    | none => exact .nil
    | some p => exact boxesFirst p none
  | cons s l ih =>
    obtain ⟨hs, hl⟩ := List.pairwise_cons.mp hl
    have hle : ∀ r ∈ l, t.depth r.1 ≤ t.depth s.1 := fun r hr => hs r.1 (List.mem_map_of_mem hr)
    have hobject : (Layer.object s.2 s.1 :: t.layersFrom (some (t.depth s.1)) l).Pairwise (Layer.Before t.depth) := by
      refine List.pairwise_cons.mpr ⟨fun a ha => ?_, ih hl fun p hp => Option.some.inj hp ▸ hle⟩
      cases a with
      | object rank slot => exact show t.depth slot ≤ t.depth s.1 from hle (slot, rank) (mem_of_object ha)
      | box b => exact show b.z ≤ t.depth s.1 from le_of_box hl hle ha
    cases previous with
    | none => exact hobject
    | some p =>
      refine List.pairwise_append.mpr ⟨boxesFirst p _, hobject, fun a ha c hc => ?_⟩
      obtain ⟨b, rfl, -, hfront⟩ := mem_covers ha
      have hfront : t.depth s.1 < b.z := by
        simpa only [Option.all_some, decide_eq_true_eq, depth] using hfront
      cases c with
      | box _ => trivial
      | object rank slot =>
        rcases List.mem_cons.mp hc with hc | hc
        · cases hc
          exact hfront
        · exact Int16.lt_of_le_of_lt (hle (slot, rank) (mem_of_object hc)) hfront

/-! ### What is drawn -/

theorem sortedSlots_perm (t : SceneTables) : t.sortedSlots.Perm (List.range t.objectsCount) := Depth.sort_perm _ _

theorem map_fst_filter (p : Nat → Bool) (l : List Nat) (n : Nat) :
    ((l.zipIdx n).filter fun s => p s.1).map Prod.fst = l.filter p := by
  induction l generalizing n with
  | nil => rfl
  | cons i l ih => by_cases h : p i <;> simp [h, ih]

theorem placesSorted (t : SceneTables) (m : Moment) :
    ((t.sortedSlots.zipIdx.filter fun s => (t.object s.1).isVisibleAt m).map Prod.fst).Pairwise
      fun i j => t.depth j ≤ t.depth i := by
  rw [map_fst_filter fun i => (t.object i).isVisibleAt m]
  exact (Depth.sort_sorted _ _).filter _

end SceneTables

namespace Game

variable {m : Moment} {g g' : Game}

/-- Layers are drawn one after the other. -/
inductive Paints (m : Moment) : List Layer → Game → Game → Prop
  | nothing {g : Game} : Paints m [] g g
  | object {l : List Layer} {g g₁ g₂ : Game} (rank : Nat) {slot : Nat} (h : drawObject m slot g = .ok () g₁)
    (hrest : Paints m l g₁ g₂) : Paints m (.object rank slot :: l) g g₂
  | box {l : List Layer} {g g₁ g₂ : Game} {b : SceneBox} (h : drawBox b g = .ok () g₁) (hrest : Paints m l g₁ g₂) :
    Paints m (.box b :: l) g g₂

theorem paints_of_drawLayers {leaveOut : Nat → Bool} {l : List Layer} (h : drawLayers m leaveOut l g = .ok () g') : Paints m (l.filter (!Layer.isLeftOut leaveOut ·)) g g' := by
  induction l generalizing g with
  | nil => cases h; exact .nothing
  | cons a l ih =>
    cases a with
    | object rank slot =>
      rw [List.filter_cons, Layer.isLeftOut_object]
      change (if !leaveOut rank then drawObject m slot >>= fun _ => drawLayers m leaveOut l
        else drawLayers m leaveOut l) g = _ at h
      split at h
      · rename_i hout
        obtain ⟨_, g₁, h₁, hrest⟩ := bind_eq_ok.mp h
        rw [if_pos hout]
        exact .object rank h₁ (ih hrest)
      · rename_i hout
        rw [if_neg hout]
        exact ih h
    | box b =>
      obtain ⟨_, g₁, h₁, hrest⟩ := bind_eq_ok.mp h
      exact .box h₁ (ih hrest)

/-- What is drawn of a scene. -/
def painted (g : Game) : List Layer := (g.tables.layers .next).filter (!Layer.isLeftOut g.hidden ·)

/-- The place in the order of the object that the first scene of the demo leaves out. -/
def LeftOut (g : Game) (slot : Nat) : Prop := g.demo ∧ g.sceneNumber = 1 ∧ g.tables.sortedSlots[14]? = some slot

/-- The slots of the objects that can be seen. -/
def visibleSlots (g : Game) : List Nat :=
  (List.range g.tables.objectsCount).filter fun i => (g.object i).isVisibleAt .next

/-- The objects that can be seen, with their ranks in the order of depth. -/
def visiblePlaces (g : Game) : List (Nat × Nat) :=
  g.tables.sortedSlots.zipIdx.filter fun s => (g.tables.object s.1).isVisibleAt .next

theorem mem_visiblePlaces {slot rank : Nat} : (slot, rank) ∈ g.visiblePlaces ↔
    g.tables.sortedSlots[rank]? = some slot ∧ (g.object slot).isVisibleAt .next := by
  rw [visiblePlaces, List.mem_filter, List.mem_zipIdx_iff_getElem?]
  rfl

theorem mem_visibleSlots {slot : Nat} : slot ∈ g.visibleSlots ↔ ∃ rank, (slot, rank) ∈ g.visiblePlaces := by
  have hslot : slot < g.tables.objectsCount ↔ ∃ rank : Nat, g.tables.sortedSlots[rank]? = some slot := by
    rw [← List.mem_iff_getElem?, g.tables.sortedSlots_perm.mem_iff, List.mem_range]
  simp only [visibleSlots, List.mem_filter, List.mem_range, hslot, mem_visiblePlaces, exists_and_right]

theorem slots_painted : Layer.slots g.painted = (g.visiblePlaces.filter (!g.hidden ·.2)).map Prod.fst := by
  rw [Layer.slots, painted, Layer.places_kept, SceneTables.layers, SceneTables.places_layersFrom, visiblePlaces]

theorem nodup_sortedSlots : g.tables.sortedSlots.Nodup := g.tables.sortedSlots_perm.nodup_iff.mpr List.nodup_range

theorem nodup_painted : (Layer.slots g.painted).Nodup := by
  rw [slots_painted]
  refine List.Nodup.sublist (List.filter_sublist.map Prod.fst) ?_
  rw [visiblePlaces, SceneTables.map_fst_filter fun i => (g.tables.object i).isVisibleAt .next]
  exact nodup_sortedSlots.filter _

theorem mem_painted {slot : Nat} : slot ∈ Layer.slots g.painted ↔ slot ∈ g.visibleSlots ∧ ¬g.LeftOut slot := by
  rw [slots_painted, List.mem_map, mem_visibleSlots]
  constructor
  · rintro ⟨⟨slot, rank⟩, hs, rfl⟩
    obtain ⟨hs, hkept⟩ := List.mem_filter.mp hs
    refine ⟨⟨rank, hs⟩, fun ⟨hdemo, hscene, hout⟩ => ?_⟩
    have hrank := (mem_visiblePlaces.mp hs).1
    have h14 : rank = 14 :=
      (List.getElem?_inj (List.getElem?_eq_some_iff.mp hrank).1 nodup_sortedSlots).mp (hrank.trans hout.symm)
    simp [hidden, hdemo, hscene, h14] at hkept
  · rintro ⟨⟨rank, hs⟩, hkept⟩
    refine ⟨(slot, rank), List.mem_filter.mpr ⟨hs, ?_⟩, rfl⟩
    simp only [hidden, Bool.not_eq_true', decide_eq_false_iff_not]
    rintro ⟨hdemo, hscene, rfl⟩
    exact hkept ⟨hdemo, hscene, (mem_visiblePlaces.mp hs).1⟩

/-- The boxes that cover an object are drawn, each once. -/
theorem boxes_painted : (Layer.boxes g.painted).Perm
    (g.tables.coverBoxes.filter fun b => ∃ i ∈ g.visibleSlots, b.z ≤ g.tables.depth i) := by
  have hcover : g.tables.coverBoxes.filter (fun b => ∃ i ∈ g.visibleSlots, b.z ≤ g.tables.depth i) =
      g.tables.coverBoxes.filter fun b => ∃ s ∈ g.visiblePlaces, b.z ≤ g.tables.depth s.1 := by
    refine List.filter_congr fun b _ => decide_eq_decide.mpr ⟨?_, ?_⟩
    · rintro ⟨i, hi, hb⟩
      obtain ⟨rank, hs⟩ := mem_visibleSlots.mp hi
      exact ⟨(i, rank), hs, hb⟩
    · rintro ⟨⟨i, rank⟩, hs, hb⟩
      exact ⟨i, mem_visibleSlots.mpr ⟨rank, hs⟩, hb⟩
  rw [painted, Layer.boxes_kept, hcover]
  exact SceneTables.boxes_layersFrom_none (g.tables.placesSorted .next)

/-- Objects and boxes are drawn by depth. -/
theorem before_painted : g.painted.Pairwise (Layer.Before g.tables.depth) :=
  (SceneTables.before_layersFrom (g.tables.placesSorted .next) fun _ h => by cases h).filter _

/-- A scene that is drawn is drawn from the back to the front. Each object that can be seen is drawn
once, but for the one that the demo leaves out, and deeper objects come first. Each box is drawn once
if an object that can be seen is not in front of it, and else never; it comes behind all objects that
are not in front of it and before all that are. -/
theorem drawScene_by_depth (h : drawScene g = .ok () g') : ∃ (l : List Layer) (g₁ : Game),
    Paints .next l g g₁ ∧
      (do if g.sceneNumber ≠ bareScene ∧ g.tables.objectsCount ≠ 0 then drawInterface
          showFrame : M Unit) g₁ = .ok () g' ∧
      l.Pairwise (Layer.Before g.tables.depth) ∧
      (Layer.slots l).Nodup ∧ (∀ slot, slot ∈ Layer.slots l ↔ slot ∈ g.visibleSlots ∧ ¬g.LeftOut slot) ∧
      (Layer.boxes l).Perm (g.tables.coverBoxes.filter fun b => ∃ i ∈ g.visibleSlots, b.z ≤ g.tables.depth i) := by
  obtain ⟨_, g₁, hlayers, hrest⟩ := bind_eq_ok.mp (show (drawLayers .next g.hidden (g.tables.layers .next) >>= fun _ =>
    (do if g.sceneNumber ≠ bareScene ∧ g.tables.objectsCount ≠ 0 then drawInterface
        showFrame : M Unit)) g = .ok () g' from h)
  exact ⟨g.painted, g₁, paints_of_drawLayers hlayers, hrest, before_painted, nodup_painted, fun _ => mem_painted,
    boxes_painted⟩

/-! ### Scenes that can be drawn -/

/-- The frame that an object shows next is there, and its sprite can be unpacked. -/
def Drawable (g : Game) (slot : Nat) : Prop :=
  ∃ f sprite, g.tables.frame (g.object slot).frameNum = .ok f ∧ f.decode = .ok sprite

theorem drawObject_ok {slot : Nat} (h : g.Drawable slot) : ∃ frame, drawObject .next slot g = .ok () { g with frame } := by
  obtain ⟨f, sprite, hf, hsprite⟩ := h
  have hunpacked : GameError.wrap .codec f.decode = .ok sprite := by rw [hsprite]; rfl
  exact ⟨_, bind_eq_ok.mpr ⟨g, g, rfl, bind_eq_ok.mpr ⟨f, g, lift_ok hf g,
    bind_eq_ok.mpr ⟨sprite, g, lift_ok hunpacked g, rfl⟩⟩⟩⟩

/-- Drawing objects and boxes changes the frame alone. -/
theorem drawLayers_ok (leaveOut : Nat → Bool) {l : List Layer} (h : ∀ i ∈ Layer.slots l, g.Drawable i) :
    ∃ frame, drawLayers .next leaveOut l g = .ok () { g with frame } := by
  induction l generalizing g with
  | nil => exact ⟨g.frame, rfl⟩
  | cons a l ih =>
    cases a with
    | object rank slot =>
      change ∃ frame, (if !leaveOut rank then drawObject .next slot >>= fun _ => drawLayers .next leaveOut l
        else drawLayers .next leaveOut l : M Unit) g = _
      split
      · obtain ⟨frame, hdraw⟩ := drawObject_ok (h slot List.mem_cons_self)
        rw [bind_of_ok hdraw]
        exact ih fun i hi => h i (List.mem_cons_of_mem _ hi)
      · exact ih fun i hi => h i (List.mem_cons_of_mem _ hi)
    | box b =>
      have hbox : drawBox b g = .ok () _ := rfl
      change ∃ frame, (drawBox b >>= fun _ => drawLayers .next leaveOut l : M Unit) g = _
      rw [bind_of_ok hbox]
      exact ih fun i hi => h i hi

theorem mem_layers {i : Nat} (hi : i ∈ Layer.slots (g.tables.layers .next)) : i ∈ g.visibleSlots := by
  rw [Layer.slots, SceneTables.layers, SceneTables.places_layersFrom] at hi
  obtain ⟨⟨i, rank⟩, hs, rfl⟩ := List.mem_map.mp hi
  exact mem_visibleSlots.mpr ⟨rank, hs⟩

/-- A scene whose visible objects have frames is drawn, unless the game is lost. -/
theorem drawScene_ok (h : ∀ i ∈ g.visibleSlots, g.Drawable i) (hlost : g.lost = false) :
    ∃ frame stage ui, drawScene g = .ok () { g with frame, stage, ui } := by
  obtain ⟨frame, hlayers⟩ := drawLayers_ok g.hidden fun i hi => h i (mem_layers hi)
  have hbanner (frame : Surface) : drawBanner { g with frame } = .ok () { g with frame } := by
    change (if !g.demo ∧ g.lost then _ else pure () : M Unit) _ = _
    rw [if_neg (by rw [hlost]; simp)]
    rfl
  have hinterface (frame : Surface) : ∃ frame' ui, drawInterface { g with frame } = .ok () { g with frame := frame', ui } := by
    unfold drawInterface
    rw [bind_of_ok (hbanner frame)]
    change ∃ frame' ui, (if g.ui.lifeBarShown then _ else pure () : M Unit) _ = _
    split
    · exact ⟨_, _, rfl⟩
    · exact ⟨_, g.ui, rfl⟩
  change ∃ frame stage ui, (drawLayers .next g.hidden (g.tables.layers .next) >>= fun _ =>
    (if g.sceneNumber ≠ bareScene ∧ g.tables.objectsCount ≠ 0 then drawInterface >>= fun _ => showFrame else showFrame)) g = _
  rw [bind_of_ok hlayers]
  split
  · obtain ⟨frame', ui, hui⟩ := hinterface frame
    rw [bind_of_ok hui]
    exact ⟨_, _, ui, rfl⟩
  · exact ⟨_, _, g.ui, rfl⟩

/-- The frame that an object shows next is there. -/
def Framed (g : Game) (slot : Nat) : Prop := ∃ f, g.tables.frame (g.object slot).frameNum = .ok f

theorem lift_wrap_error {ε α : Type} {f : ε → GameError} {r : Except ε α} {e : GameError}
    (he : (ofExcept (GameError.wrap f r) : M α) g = .error e g') : ∃ c, e = f c := by
  cases r with
  | ok a => cases he
  | error c =>
    cases he
    exact ⟨c, rfl⟩

theorem drawObject_error {slot : Nat} {e : GameError} (h : g.Framed slot) (he : drawObject .next slot g = .error e g') :
    ∃ c, e = .codec c := by
  obtain ⟨f, hf⟩ := h
  rcases bind_eq_error.mp he with he | ⟨_, _, hget, he⟩
  · cases he
  cases hget
  rw [bind_of_ok (lift_ok (show g.tables.frame ((g.object slot).frameAt .next) = .ok f from hf) g)] at he
  rcases bind_eq_error.mp he with he | ⟨sprite, g₁, -, he⟩
  · exact lift_wrap_error he
  · cases he

theorem drawLayers_error {leaveOut : Nat → Bool} {l : List Layer} {e : GameError} (h : ∀ i ∈ Layer.slots l, g.Framed i)
    (he : drawLayers .next leaveOut l g = .error e g') : ∃ c, e = .codec c := by
  induction l generalizing g with
  | nil => cases he
  | cons a l ih =>
    cases a with
    | object rank slot =>
      have hrest (i : Nat) (hi : i ∈ Layer.slots l) : g.Framed i := h i (List.mem_cons_of_mem _ hi)
      change (if !leaveOut rank then drawObject .next slot >>= fun _ => drawLayers .next leaveOut l
        else drawLayers .next leaveOut l : M Unit) g = _ at he
      split at he
      · rcases bind_eq_error.mp he with he | ⟨_, g₁, hdraw, he⟩
        · exact drawObject_error (h slot List.mem_cons_self) he
        · have htables : g₁.tables = g.tables := (unseen_tables.showActs.drawObject .next slot g).of_ok hdraw
          refine ih (fun i hi => ?_) he
          rw [Framed, Game.object, htables]
          exact hrest i hi
      · exact ih hrest he
    | box b =>
      obtain he | ⟨_, g₁, hdraw, he⟩ := bind_eq_error.mp he
      · cases he
      · have htables : g₁.tables = g.tables := (unseen_tables.showActs.drawBox b g).of_ok hdraw
        refine ih (fun i hi => ?_) he
        rw [Framed, Game.object, htables]
        exact h i hi

theorem drawBanner_error {e : GameError} (he : drawBanner g = .error e g') : ∃ c, e = .codec c := by
  rcases bind_eq_error.mp he with he | ⟨_, _, hget, he⟩
  · cases he
  cases hget
  by_cases hlost : !g.demo ∧ g.lost
  · rw [if_pos hlost] at he
    cases hbanner : g.ui.banner with
    | none =>
      rw [hbanner] at he
      cases he
    | some packed =>
      rw [hbanner] at he
      rcases bind_eq_error.mp he with he | ⟨_, _, -, he⟩
      · exact lift_wrap_error he
      · cases he
  · rw [if_neg hlost] at he
    cases he

theorem drawInterface_error {e : GameError} (he : drawInterface g = .error e g') : ∃ c, e = .codec c := by
  rcases bind_eq_error.mp he with he | ⟨_, g₁, -, he⟩
  · exact drawBanner_error he
  · -- what follows the banner cannot fail
    change (if g₁.ui.lifeBarShown then _ else _ : M Unit) _ = _ at he
    split at he <;> cases he

/-- A scene whose visible objects are in frames that are there fails to be drawn only for a sprite that
cannot be unpacked. -/
theorem drawScene_error {e : GameError} (h : ∀ i ∈ g.visibleSlots, g.Framed i) (he : drawScene g = .error e g') :
    ∃ c, e = .codec c := by
  rcases bind_eq_error.mp he with he | ⟨_, _, hget, he⟩
  · cases he
  cases hget
  rcases bind_eq_error.mp he with he | ⟨_, g₁, -, he⟩
  · exact drawLayers_error (fun i hi => h i (mem_layers hi)) he
  change (if g.sceneNumber ≠ bareScene ∧ g.tables.objectsCount ≠ 0 then drawInterface >>= fun _ => showFrame
    else showFrame : M Unit) g₁ = _ at he
  split at he
  · rcases bind_eq_error.mp he with he | ⟨_, _, -, he⟩
    · exact drawInterface_error he
    · cases he
  · cases he

/-! ### A box between two objects -/

/-- A frame of one point. -/
def pointFrame : SpriteFrame where
  packed := Bytes.ofList [5, 0, 0, 0, 0, 0, 0, 0, 0, 0, 0]
  header := ⟨1, 1, 1, 0, 0⟩
  packing := .blocks

theorem decode_pointFrame : ∃ sprite, pointFrame.decode = .ok sprite := by
  have hdeclared : Bytes.le32? pointFrame.packed 0 = some 5 := by decide
  have hunits : Bytes.le32? pointFrame.packed 4 = some 0 := by decide
  refine ⟨Bytes.pushN ByteArray.empty 0 5, ?_⟩
  rw [SpriteFrame.decode, pointFrame, Packing.decode, Lzss.decode]
  rw [pointFrame] at hdeclared hunits
  rw [hdeclared, hunits]
  simp only [show (0 : UInt32).toNat = 0 from rfl]
  rw [Lzss.decodeBlocks]
  rfl

/-- Two objects, and a box that covers the deeper one of them. -/
def boxedGame : Game :=
  { (default : Game) with
    tables := {
      objects := ((Vector.replicate maxObjects {}).set 0 { state := 2, z := 3 }).set 1 { state := 1, z := 5 }
      objectsCount := 2
      frames := #[pointFrame]
      boxes := (Vector.replicate numBoxGroups (Vector.replicate boxesPerGroup {})).set 0
        (Vector.replicate boxesPerGroup { state := 2, z := 4 })
      boxCounts := (Vector.replicate numBoxGroups 0).set 0 1
      loaded := .movies } }

theorem drawScene_by_depth_boxedGame : ∃ g', drawScene boxedGame = .ok () g' ∧
    ∃ (l : List Layer) (g₁ : Game), Paints .next l boxedGame g₁ ∧
      (do if boxedGame.sceneNumber ≠ bareScene ∧ boxedGame.tables.objectsCount ≠ 0 then drawInterface
          showFrame : M Unit) g₁ = .ok () g' ∧
      l.Pairwise (Layer.Before boxedGame.tables.depth) ∧
      (Layer.slots l).Nodup ∧
      (∀ slot, slot ∈ Layer.slots l ↔ slot ∈ boxedGame.visibleSlots ∧ ¬boxedGame.LeftOut slot) ∧
      (Layer.boxes l).Perm
        (boxedGame.tables.coverBoxes.filter fun b => ∃ i ∈ boxedGame.visibleSlots, b.z ≤ boxedGame.tables.depth i) := by
  obtain ⟨sprite, hsprite⟩ := decode_pointFrame
  have hdrawable : ∀ i ∈ boxedGame.visibleSlots, boxedGame.Drawable i := by
    have hslots : boxedGame.visibleSlots = [0, 1] := by decide
    intro i hi
    rw [hslots, List.mem_cons, List.mem_singleton] at hi
    rcases hi with rfl | rfl
    · exact ⟨pointFrame, sprite, rfl, hsprite⟩
    · exact ⟨pointFrame, sprite, rfl, hsprite⟩
  obtain ⟨frame, stage, ui, h⟩ := drawScene_ok hdrawable rfl
  exact ⟨_, h, drawScene_by_depth h⟩

end Game

end Adventure
