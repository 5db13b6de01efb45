import Adventure.Proofs.Game.Valid

/-! Drawing a scene moves its objects on, each of them once; an object is not touched when another one
moves on. A scene whose frames are there is drawn, and its objects move on. -/

namespace Adventure

namespace SceneTables

theorem frameHeader_congr {t t' : SceneTables} (h : t.stock = t'.stock) : t.frameHeader = t'.frameHeader := by
  have hframes : t.frames = t'.frames := congrArg Stock.frames h
  cases t
  cases t'
  cases hframes
  rfl

theorem motion_congr {t t' : SceneTables} (h : t.stock = t'.stock) : t.motion = t'.motion := by
  have hmotions : t.motions = t'.motions := congrArg Stock.motions h
  cases t
  cases t'
  cases hmotions
  rfl

/-- Where there is no slot nothing is animated. -/
theorem lt_of_state {t : SceneTables} {i : Nat} (h : (t.object i).state = 1) : i < maxObjects := by
  refine Nat.lt_of_not_le fun hi => ?_
  have hnone : t.objects[i]? = none := by simp [hi]
  rw [object, hnone] at h
  exact absurd h (by decide)

end SceneTables

namespace Game

variable {i : Nat} {g g' : Game}

theorem object_onObject (i : Nat) {j : Nat} (hij : j ≠ i) (f : SceneObject → SceneObject) :
    Leaves (fun g => g.object i) (onObject j f) := by
  intro g
  change SceneTables.object _ i = _
  rw [SceneTables.object_modifyObject, if_neg fun h => hij h.1]
  rfl

/-- An object is not touched when another one moves on. -/
theorem object_advanceObject {j : Nat} (hij : j ≠ i) : Leaves (fun g => g.object i) (advanceObject j) := by
  have hC := Chains.same fun g : Game => g.object i
  exact hC.bind (object_onObject i hij _) fun _ => hC.look fun _ => .ite (hC.bind (object_onObject i hij _) fun _ =>
    hC.look fun _ => hC.bind (hC.lift _) fun _ => hC.bind (hC.lift _) fun _ => hC.bind (hC.lift _) fun _ =>
      object_onObject i hij _) (hC.value _)

/-- What is drawn next has been drawn, and the next frame of the motion is shown. -/
structure Advances (t : SceneTables) (o o' : SceneObject) : Prop where
  animated : o.state = 1
  moved : ∃ (frame : Int16) (last next : FrameHeader), t.frameHeader o.frameNum = .ok last ∧
    t.frameHeader frame = .ok next ∧ o' = ({ o with statePrev := o.state }.drawn).advanced frame last next

theorem advances_of_advanceObject (hi : i < maxObjects) (h : advanceObject i g = .ok () g')
    (hstate : (g'.object i).state = 1) : Advances g.tables (g.object i) (g'.object i) := by
  have here (f : SceneObject → SceneObject) (t : SceneTables) : (t.modifyObject i f).object i = f (t.object i) := by
    rw [SceneTables.object_modifyObject, if_pos ⟨rfl, hi⟩]
  obtain ⟨_, g₁, h₁, h⟩ := bind_eq_ok.mp h
  cases h₁
  obtain ⟨_, g₁, h₁, h⟩ := bind_eq_ok.mp h
  cases h₁
  split at h
  · rename_i hanimated
    rw [Game.object, here] at hanimated
    refine ⟨hanimated, ?_⟩
    obtain ⟨_, g₂, h₂, h⟩ := bind_eq_ok.mp h
    cases h₂
    obtain ⟨_, g₂, h₂, h⟩ := bind_eq_ok.mp h
    cases h₂
    obtain ⟨last, g₂, h₂, h⟩ := bind_eq_ok.mp h
    obtain ⟨rfl, hlast⟩ := (Leads.lift _ _).of_ok h₂
    obtain ⟨motion, g₃, h₃, h⟩ := bind_eq_ok.mp h
    obtain ⟨rfl, -⟩ := (Leads.lift _ _).of_ok h₃
    obtain ⟨next, g₄, h₄, h⟩ := bind_eq_ok.mp h
    obtain ⟨rfl, hnext⟩ := (Leads.lift _ _).of_ok h₄
    cases h
    simp only [Game.object, here] at hlast ⊢
    exact ⟨_, last, next, hlast, hnext, rfl⟩
  · rename_i hanimated
    cases h
    exact absurd hstate hanimated

theorem Advances.congr {t t' : SceneTables} {o o' : SceneObject} (h : Advances t o o') (ht : t.stock = t'.stock) :
    Advances t' o o' := by
  obtain ⟨hanimated, frame, last, next, hlast, hnext, ho⟩ := h
  rw [SceneTables.frameHeader_congr ht] at hlast hnext
  exact ⟨hanimated, frame, last, next, hlast, hnext, ho⟩

theorem object_advanceObjects {l : List Nat} (hl : i ∉ l) : Leaves (fun g => g.object i) (advanceObjects l) := by
  have hC := Chains.same fun g : Game => g.object i
  induction l with
  | nil => exact hC.value _
  | cons j l ih =>
    rw [List.mem_cons, not_or] at hl
    exact hC.bind (object_advanceObject (Ne.symm hl.1)) fun _ => ih hl.2

/-- Each object of a list moves on once. -/
theorem advances_of_advanceObjects {l : List Nat} (hl : l.Nodup) (hmem : i ∈ l) (hi : i < maxObjects)
    (h : advanceObjects l g = .ok () g') (hstate : (g'.object i).state = 1) :
    Advances g.tables (g.object i) (g'.object i) := by
  induction l generalizing g with
  | nil => cases hmem
  | cons j l ih =>
    obtain ⟨hj, hl⟩ := List.nodup_cons.mp hl
    obtain ⟨_, g₁, h₁, h⟩ := bind_eq_ok.mp h
    by_cases hij : j = i
    · subst hij
      have hrest : g'.object j = g₁.object j := (object_advanceObjects hj g₁).of_ok h
      rw [hrest] at hstate ⊢
      exact advances_of_advanceObject hi h₁ hstate
    · have hobject : g₁.object i = g.object i := (object_advanceObject hij g).of_ok h₁
      have hground : g₁.ground = g.ground := (idle_ground.advanceObject j g).of_ok h₁
      have hmem : i ∈ l := (List.mem_cons.mp hmem).resolve_left (Ne.symm hij)
      exact hobject ▸ (ih hl hmem h).congr (congrArg Ground.stock hground)

/-- An object is left as it is, unless it is about to go. -/
theorem object_removeObjects (t : SceneTables) (i : Nat) : (removeObjects t).object i = t.object i ∨
    (t.object i).state = -1 ∧ (removeObjects t).object i = { t.object i with state := 0 } := by
  unfold removeObjects
  generalize List.range t.objectsCount = l
  induction l generalizing t with
  | nil => exact Or.inl rfl
  | cons j l ih =>
    have hrest := ih (t.modifyObject j fun o => if o.state = -1 then { o with state := 0 } else o)
    rw [SceneTables.object_modifyObject] at hrest
    rw [List.foldl_cons]
    split at hrest
    · rename_i hj
      split at hrest
      · rename_i hgoing
        rcases hrest with hrest | ⟨hstate, -⟩
        · exact Or.inr ⟨hgoing, hrest⟩
        · cases hstate
      · exact hrest
    · exact hrest

theorem stock_removeObjects (t : SceneTables) : (removeObjects t).stock = t.stock :=
  SceneTables.same_foldl SceneTables.stock _ _ fun _ _ => rfl

/-- Drawing a scene removes the objects that are about to go and lets the others move on. -/
theorem of_drawObjects (h : drawObjects g = .ok () g') :
    ∃ g₁, g₁.tables = removeObjects g.tables ∧ advanceObjects (List.range g.tables.objectsCount) g₁ = .ok () g' := by
  obtain ⟨_, g₁, h₁, h⟩ := bind_eq_ok.mp h
  have htables : g₁.tables = g.tables := (unseen_tables.showActs.drawScene g).of_ok h₁
  obtain ⟨_, g₂, h₂, h⟩ := bind_eq_ok.mp h
  cases h₂
  obtain ⟨_, g₂, h₂, h⟩ := bind_eq_ok.mp h
  cases h₂
  have hcount : (removeObjects g₁.tables).objectsCount = g.tables.objectsCount :=
    congrArg Stock.objectsCount ((stock_removeObjects _).trans (congrArg SceneTables.stock htables))
  exact ⟨_, congrArg removeObjects htables, hcount ▸ h⟩

/-- An object that is animated moves on once when the scene is drawn. -/
theorem advances_of_drawObjects (h : drawObjects g = .ok () g') (hi : i < g.tables.objectsCount)
    (hstate : (g'.object i).state = 1) : Advances g.tables (g.object i) (g'.object i) := by
  obtain ⟨g₁, htables, h⟩ := of_drawObjects h
  have hadvances := advances_of_advanceObjects List.nodup_range (List.mem_range.mpr hi) (SceneTables.lt_of_state hstate) h
    hstate
  have hobject : g₁.object i = g.object i := by
    rw [Game.object, htables]
    refine (object_removeObjects g.tables i).resolve_right fun hgone => ?_
    have hstill : (0 : Int16) = 1 := by
      rw [← hadvances.animated, Game.object, htables, hgone.2]
    exact absurd hstill (by decide)
  exact hobject ▸ hadvances.congr (htables ▸ stock_removeObjects g.tables)

/-! ### Scenes that go on -/

/-- If an object is animated, its frame and the one that comes next are there. -/
def MovesOn (t : SceneTables) (o : SceneObject) : Prop :=
  o.state = 1 → ∃ last motion next, t.frameHeader o.frameNum = .ok last ∧ t.motion o.motionNum2.toInt = .ok motion ∧
    t.frameHeader (last.num.toInt + motion.firstFrame.toInt).toInt16 = .ok next

theorem advanceObject_ok (h : MovesOn g.tables (g.object i)) : ∃ tables, advanceObject i g = .ok () { g with tables } := by
  let t₁ := g.tables.modifyObject i fun o => { o with statePrev := o.state }
  by_cases hanimated : (g.object i).state = 1
  · obtain ⟨last, motion, next, hlast, hmotion, hnext⟩ := h hanimated
    have here (f : SceneObject → SceneObject) (t : SceneTables) : (t.modifyObject i f).object i = f (t.object i) := by
      rw [SceneTables.object_modifyObject, if_pos ⟨rfl, SceneTables.lt_of_state hanimated⟩]
    let g₂ : Game := { g with tables := t₁.modifyObject i SceneObject.drawn }
    have hobject : g₂.object i = { g.object i with statePrev := (g.object i).state }.drawn := by
      rw [Game.object, here, here]
      rfl
    have hstate : (t₁.object i).state = 1 := by rw [here]; exact hanimated
    change ∃ tables, (if (t₁.object i).state = 1 then _ else _ : M Unit) { g with tables := t₁ } = .ok () { g with tables }
    rw [if_pos hstate]
    have hlast : g₂.tables.frameHeader (g₂.object i).frameNumPrev = .ok last := hobject ▸ hlast
    have hmotion : g₂.tables.motion (g₂.object i).motionNum2.toInt = .ok motion := hobject ▸ hmotion
    exact ⟨_, bind_eq_ok.mpr ⟨(), g₂, rfl, bind_eq_ok.mpr ⟨g₂, g₂, rfl,
      bind_eq_ok.mpr ⟨last, g₂, lift_ok hlast g₂, bind_eq_ok.mpr ⟨motion, g₂, lift_ok hmotion g₂,
        bind_eq_ok.mpr ⟨next, g₂, lift_ok hnext g₂, rfl⟩⟩⟩⟩⟩⟩
  · have hstate : (t₁.object i).state ≠ 1 := by
      rw [SceneTables.object_modifyObject]
      split <;> exact hanimated
    change ∃ tables, (if (t₁.object i).state = 1 then _ else _ : M Unit) { g with tables := t₁ } = .ok () { g with tables }
    rw [if_neg hstate]
    exact ⟨t₁, rfl⟩

/-- Moving on keeps all states. -/
theorem state_advanceObject (i j : Nat) : Leaves (fun g => (g.object i).state) (advanceObject j) := by
  have hC := Chains.same fun g : Game => (g.object i).state
  have edit {f : SceneObject → SceneObject} (hf : ∀ o, (f o).state = o.state) :
      Leaves (fun g => (g.object i).state) (onObject j f) := by
    intro g
    change (SceneTables.object _ i).state = _
    rw [SceneTables.object_modifyObject]
    split
    · exact hf _
    · rfl
  exact hC.bind (edit fun _ => rfl) fun _ => hC.look fun _ => .ite (hC.bind (edit fun _ => rfl) fun _ =>
    hC.look fun _ => hC.bind (hC.lift _) fun _ => hC.bind (hC.lift _) fun _ => hC.bind (hC.lift _) fun _ =>
      edit fun _ => rfl) (hC.value _)

theorem state_advanceObjects (i : Nat) (l : List Nat) : Leaves (fun g => (g.object i).state) (advanceObjects l) := by
  have hC := Chains.same fun g : Game => (g.object i).state
  induction l with
  | nil => exact hC.value _
  | cons j l ih => exact hC.bind (state_advanceObject i j) fun _ => ih

theorem MovesOn.congr {t t' : SceneTables} {o : SceneObject} (h : MovesOn t o) (ht : t.stock = t'.stock) : MovesOn t' o := by
  intro hstate
  obtain ⟨last, motion, next, hlast, hmotion, hnext⟩ := h hstate
  rw [SceneTables.frameHeader_congr ht] at hlast hnext
  rw [SceneTables.motion_congr ht] at hmotion
  exact ⟨last, motion, next, hlast, hmotion, hnext⟩

theorem advanceObjects_ok {l : List Nat} (hl : l.Nodup) (h : ∀ i ∈ l, MovesOn g.tables (g.object i)) :
    ∃ tables, advanceObjects l g = .ok () { g with tables } := by
  induction l generalizing g with
  | nil => exact ⟨g.tables, rfl⟩
  | cons j l ih =>
    obtain ⟨hj, hl⟩ := List.nodup_cons.mp hl
    obtain ⟨t, ht⟩ := advanceObject_ok (h j List.mem_cons_self)
    have hstock : t.stock = g.tables.stock := congrArg Ground.stock ((idle_ground.advanceObject j g).of_ok ht)
    obtain ⟨tables, hrest⟩ := ih (g := { g with tables := t }) hl fun i hi => by
      have hij : j ≠ i := by
        rintro rfl
        exact hj hi
      have hobject : t.object i = g.object i := (object_advanceObject hij g).of_ok ht
      rw [Game.object, hobject]
      exact (h i (List.mem_cons_of_mem _ hi)).congr hstock.symm
    exact ⟨tables, (bind_of_ok ht).trans hrest⟩

/-- A scene is drawn and its objects move on if their frames are there, and so are the next ones. -/
theorem drawObjects_ok (hdraw : ∀ i ∈ g.visibleSlots, g.Drawable i) (hlost : g.lost = false)
    (hmove : ∀ i < g.tables.objectsCount, MovesOn g.tables (g.object i)) :
    ∃ frame stage ui tables, drawObjects g = .ok () { g with frame, stage, ui, tables } := by
  obtain ⟨frame, stage, ui, hscene⟩ := drawScene_ok hdraw hlost
  have hstock := stock_removeObjects g.tables
  have hcount : (removeObjects g.tables).objectsCount = g.tables.objectsCount := congrArg Stock.objectsCount hstock
  let g₁ : Game := { g with frame, stage, ui, tables := removeObjects g.tables }
  obtain ⟨tables, hrest⟩ := advanceObjects_ok (g := g₁) (List.nodup_range (n := g₁.tables.objectsCount)) fun i hi => by
    have hold := (hmove i (hcount ▸ List.mem_range.mp hi)).congr hstock.symm
    rcases object_removeObjects g.tables i with hobject | ⟨-, hobject⟩
    · rw [Game.object, hobject]
      exact hold
    · rw [Game.object, hobject]
      exact fun h => absurd (show (0 : Int16) = 1 from h) (by decide)
  exact ⟨frame, stage, ui, tables, (bind_of_ok hscene).trans hrest⟩

/-- Drawing a scene, objects that are about to go are gone, and all others keep their states. -/
theorem state_drawObjects (h : drawObjects g = .ok () g') (hstate : (g.object i).state ≠ -1) :
    (g'.object i).state = (g.object i).state := by
  obtain ⟨g₁, htables, h⟩ := of_drawObjects h
  have hmoved := (state_advanceObjects i _ _).of_ok h
  have hobject : g₁.object i = g.object i := by
    rw [Game.object, htables]
    exact (object_removeObjects g.tables i).resolve_right fun hgone => hstate hgone.1
  exact hmoved.trans (congrArg SceneObject.state hobject)

/-! ### The bird goes on -/

theorem drawable_birdGame : ∀ i ∈ birdGame.visibleSlots, birdGame.Drawable i := by
  have hslots : birdGame.visibleSlots = [0] := by decide
  intro i hi
  rw [hslots, List.mem_singleton] at hi
  subst hi
  obtain ⟨sprite, hsprite⟩ := decode_pointFrame
  exact ⟨birdFrame ⟨1, 4, 2, 1, 3⟩, sprite, rfl, hsprite⟩

theorem movesOn_birdGame : ∀ i < birdGame.tables.objectsCount, MovesOn birdGame.tables (birdGame.object i) := by
  intro i hi hstate
  obtain rfl : i = 0 := Nat.lt_one_iff.mp hi
  exact ⟨⟨1, 4, 2, 1, 3⟩, { count := 2 }, ⟨0, 6, 3, 2, 5⟩, rfl, rfl, rfl⟩

end Game

end Adventure
