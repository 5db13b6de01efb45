import Adventure.Proofs.Game.Depth
import Adventure.Proofs.Game.Frames
import Adventure.Proofs.Game.Partition

/-! Objects that are drawn, or were, are in motions and frames that are there. Scripts, starting and the
step to the next frame keep this up; so the animation of an object is found before its script runs, and the
frame of an object when it is drawn. -/

namespace Adventure

namespace Table

variable {table : Table} {n : Nat} {i : Int}

theorem bounds_of_check {k : Fin n} (h : table.check n i = .ok k) : 0 ≤ i ∧ i < n := by
  unfold check at h
  split at h
  · rename_i hi
    omega
  · cases h

theorem check_of_bounds (h : 0 ≤ i ∧ i < n) : table.check n i = .ok ⟨i.toNat, by omega⟩ := dif_pos (by omega)

end Table

namespace Stock

def HasMotion (s : Stock) (i : Int16) : Prop := 0 ≤ i.toInt ∧ i.toInt < s.motions.size

def HasFrame (s : Stock) (i : Int16) : Prop := 0 ≤ i.toInt ∧ i.toInt < s.frames.size

instance (s : Stock) (i : Int16) : Decidable (s.HasMotion i) := inferInstanceAs (Decidable (_ ∧ _))

instance (s : Stock) (i : Int16) : Decidable (s.HasFrame i) := inferInstanceAs (Decidable (_ ∧ _))

end Stock

/-- What shows, or showed when it was drawn last, is in motions and frames that are there. -/
def Showing.Stands (s : Stock) (v : Showing) : Prop :=
  v.state ≠ 0 ∨ v.statePrev ≠ 0 →
    s.HasMotion v.motionNum1 ∧ s.HasMotion v.motionNum2 ∧ s.HasFrame v.frameNum ∧ s.HasFrame v.frameNumPrev

namespace SceneTables

variable {t : SceneTables}

/-- The tables of movies hang together, and all objects stand in them. -/
structure Valid (t : SceneTables) : Prop where
  partitioned : t.stock.Partitioned
  stands : ∀ i < t.objectsCount, (t.object i).showing.Stands t.stock

theorem motion_bounds {i : Int} {m : Motion} (h : t.motion i = .ok m) : 0 ≤ i ∧ i < t.motions.size := by
  obtain ⟨k, hk, -⟩ := except_bind_eq_ok.mp h
  exact Table.bounds_of_check hk

theorem hasFrame {i : Int16} {h : FrameHeader} (hi : t.frameHeader i = .ok h) : t.stock.HasFrame i := by
  obtain ⟨f, hf, -⟩ := except_bind_eq_ok.mp hi
  obtain ⟨k, hk, -⟩ := except_bind_eq_ok.mp hf
  exact Table.bounds_of_check hk

theorem exists_motion {i : Int16} (h : t.stock.HasMotion i) :
    ∃ m, t.motion i.toInt = .ok m ∧ t.motions[i.toInt.toNat]? = some m := by
  have hlt : i.toInt.toNat < t.motions.size := by
    have hsize : i.toInt < t.motions.size := h.2
    have hpos := h.1
    omega
  exact ⟨t.motions[i.toInt.toNat], except_bind_eq_ok.mpr ⟨_, Table.check_of_bounds h, rfl⟩, Array.getElem?_eq_getElem hlt⟩

theorem exists_frame {i : Int16} (h : t.stock.HasFrame i) : ∃ f, t.frame i = .ok f :=
  ⟨_, except_bind_eq_ok.mpr ⟨_, Table.check_of_bounds h, rfl⟩⟩

/-- The motion that an object starts with keeps its number in sixteen bits. -/
theorem hasMotion_start (ht : t.stock.Partitioned) {o : SceneObject} {frame : Int16} (h : t.firstFrame o = .ok frame) :
    t.stock.HasMotion o.firstMotion.toInt16 := by
  obtain ⟨m, hm, -⟩ := except_bind_eq_ok.mp h
  have hbounds := motion_bounds hm
  have hfew : t.motions.size ≤ maxMotions := ht.fewMotions
  have hsmall : o.firstMotion.toInt16.toInt = o.firstMotion := by
    simp only [maxMotions] at hfew
    exact Int16.toInt_ofInt_of_le (by omega) (by omega)
  rw [Stock.HasMotion, hsmall]
  exact hbounds

/-- Whatever a script makes of an object, it stands. -/
theorem stands_of_edit {o o' : SceneObject} (ht : t.stock.Partitioned) (h : o.Edit t o') (ho : o.showing.Stands t.stock) :
    o'.showing.Stands t.stock := by
  cases h with
  | keeps h =>
    have hshowing : o'.showing = o.showing := (Prod.ext_iff.mp h).1
    rwa [hshowing]
  | stepsBack =>
    intro hactive
    obtain ⟨h₁, h₂, -, h₄⟩ := ho hactive
    exact ⟨h₁, h₂, h₄, h₄⟩
  | leaves h => exact fun _ => ho (Or.inl h)
  | wakes h => exact fun _ => ho (Or.inl fun h0 => absurd (h.symm.trans h0) (by decide))
  | halts h =>
    obtain ⟨h₁, h₂, -, h₄⟩ := ho (Or.inl fun h0 => absurd (h.symm.trans h0) (by decide))
    exact fun _ => ⟨h₁, h₂, h₄, h₄⟩
  | starts hfirst hframe =>
    have hmotion := hasMotion_start ht hfirst
    have hlast : t.stock.HasFrame _ := hasFrame hframe
    rw [SceneObject.showing_placed]
    refine fun _ => ⟨hmotion, hmotion, hlast, ?_⟩
    dsimp only
    split
    · exact hlast
    · rename_i hstate
      exact (ho (Or.inl hstate)).2.2.2
  | turns x y hdrawn hmotion hframe =>
    obtain ⟨h₁, -, -, h₄⟩ := ho (Or.inr hdrawn)
    exact fun _ => ⟨h₁, motion_bounds hmotion, hasFrame hframe, h₄⟩

/-- Changing objects that stand to others that do. -/
theorem Valid.modifyObject (ht : t.Valid) (i : Nat) {f : SceneObject → SceneObject}
    (hf : (t.object i).showing.Stands t.stock → (f (t.object i)).showing.Stands t.stock) : (t.modifyObject i f).Valid where
  partitioned := ht.partitioned
  stands j hj := by
    have hold := ht.stands j hj
    rw [object_modifyObject]
    split
    · rename_i h
      obtain ⟨rfl, -⟩ := h
      exact hf hold
    · exact hold

theorem Valid.removeObjects (ht : t.Valid) : (Game.removeObjects t).Valid := by
  unfold Game.removeObjects
  generalize List.range t.objectsCount = l
  induction l generalizing t with
  | nil => exact ht
  | cons i l ih =>
    refine ih (ht.modifyObject i fun h hactive => ?_)
    by_cases hstate : (t.object i).state = -1
    · rw [if_pos hstate] at hactive ⊢
      exact h (Or.inl fun h0 => absurd (hstate.symm.trans h0) (by decide))
    · rw [if_neg hstate] at hactive ⊢
      exact h hactive

/-- Of the tables only what movies brought and the objects matter. -/
theorem valid_of_same {t' : SceneTables} (ht : t.Valid) (hstock : t'.stock = t.stock) (hobjects : t'.objects = t.objects) :
    t'.Valid := by
  have hcount : t'.objectsCount = t.objectsCount := congrArg Stock.objectsCount hstock
  refine ⟨hstock ▸ ht.partitioned, fun i hi => ?_⟩
  have hobject : t'.object i = t.object i := by rw [object, hobjects, object]
  rw [hstock, hobject]
  exact ht.stands i (hcount ▸ hi)

theorem objects_keepBoxes (keep : Bool) (t : SceneTables) (group : Nat) : (Operator.keepBoxes keep t group).objects = t.objects := by
  cases keep <;> rfl

end SceneTables

namespace Game

variable {g g' : Game}

/-- A game in whose scene all objects stand. -/
def Valid (g : Game) : Prop := g.tables.Valid

theorem Act.valid (h : g.Act g') (hg : g.Valid) : g'.Valid := by
  cases h with
  | beside h =>
    obtain ⟨hhull, hobjects⟩ := Prod.ext_iff.mp h
    exact SceneTables.valid_of_same hg (congrArg (fun s : Ground × Core => s.1.stock) hhull) hobjects
  | object i h => exact hg.modifyObject i (SceneTables.stands_of_edit hg.partitioned h)
  | bag h => exact hg
  | asks h => exact hg
  | keepsBoxes keep =>
    exact SceneTables.valid_of_same hg (SceneTables.same_foldl SceneTables.stock _ _ (Operator.stock_keepBoxes keep))
      (SceneTables.same_foldl (·.objects) _ _ (SceneTables.objects_keepBoxes keep))

theorem Acts.valid (h : g.Acts g') (hg : g.Valid) : g'.Valid := by
  induction h with
  | refl => exact hg
  | tail _ h ih => exact h.valid ih

/-- A step that leads from valid games to valid ones, if it succeeds. -/
def KeepsValid {α : Type} (m : M α) : Prop := Within (fun g g' => g.Valid → g'.Valid) (fun _ _ => True) m

theorem chains_valid : Chains (fun g g' : Game => g.Valid → g'.Valid) fun _ _ => True where
  refl _ := id
  stop _ := trivial
  trans h h' := h' ∘ h
  fails _ _ := trivial

namespace KeepsValid

variable {α : Type} {m : M α}

theorem of_acts (hm : Within Acts Acts m) : KeepsValid m := fun g => (hm g).mono (fun _ _ h => h.valid) fun _ _ => trivial

theorem of_tables (hm : Leaves tables m) : KeepsValid m := fun g =>
  (hm g).mono (fun _ g' (h : g'.tables = g.tables) (hg : g.tables.Valid) => show g'.tables.Valid from h ▸ hg) fun _ _ => trivial

theorem change {f : Game → Game} (hf : ∀ g, (f g).tables = g.tables) : KeepsValid (modify f : M Unit) := of_tables hf

theorem onObject (i : Nat) {f : SceneObject → SceneObject}
    (hf : ∀ o s, o.showing.Stands s → (f o).showing.Stands s) : KeepsValid (onObject i f) :=
  fun g (hg : g.tables.Valid) => hg.modifyObject i (hf _ _)

/-! ### Running a scene -/

theorem runScripts (l : List Nat) : KeepsValid (runScripts l) := by
  induction l with
  | nil => exact chains_valid.value _
  | cons i l ih =>
    exact chains_valid.look fun g => .ite (chains_valid.bind (chains_valid.lift _) fun a =>
      chains_valid.bind (of_acts (acts_runScript _ _)) fun _ => ih) ih

theorem startObjects (l : List Nat) : KeepsValid (startObjects l) := of_acts (acts_startObjects l)

/-- The frame that an object goes on to is there. -/
theorem advanceObject (i : Nat) : KeepsValid (advanceObject i) := by
  have hC := chains_valid
  refine hC.bind (onObject i fun o s h hactive => h (Or.inl (or_self_iff.mp hactive))) fun _ =>
    hC.look fun _ => .ite (hC.bind (onObject i fun o s h hactive => ?_) fun _ g => ?_) (hC.value _)
  · obtain ⟨-, hmotion, hframe, -⟩ := h hactive
    exact ⟨hmotion, hmotion, hframe, hframe⟩
  refine Leads.look (Leads.bind ((Leads.lift _ _).mono ?_ fun _ _ => trivial))
  rintro last g ⟨rfl, -⟩
  refine Leads.bind ((Leads.lift _ _).mono ?_ fun _ _ => trivial)
  rintro motion g ⟨rfl, -⟩
  refine Leads.bind ((Leads.lift _ _).mono ?_ fun _ _ => trivial)
  rintro next g ⟨rfl, hnext⟩
  intro (hg : g.tables.Valid)
  refine hg.modifyObject i fun h hactive => ?_
  obtain ⟨h₁, h₂, -, h₄⟩ := h hactive
  exact ⟨h₁, h₂, SceneTables.hasFrame hnext, h₄⟩

theorem advanceObjects (l : List Nat) : KeepsValid (advanceObjects l) := by
  induction l with
  | nil => exact chains_valid.value _
  | cons i l ih => exact chains_valid.bind (advanceObject i) fun _ => ih

theorem drawObjects : KeepsValid drawObjects :=
  have hC := chains_valid
  hC.bind (of_tables unseen_tables.showActs.drawScene) fun _ =>
    hC.bind (fun g (hg : g.tables.Valid) => hg.removeObjects) fun _ => hC.look fun _ => advanceObjects _

theorem checkOver : KeepsValid checkOver :=
  have hC := chains_valid
  hC.look fun _ => .ite (hC.bind (change fun _ => rfl) fun _ =>
    hC.bind (of_tables (unseen_tables.showActs.playMusic _)) fun _ => change fun _ => rfl) (hC.value _)

theorem sceneFrame : KeepsValid sceneFrame :=
  have hC := chains_valid
  have follow (g : Game) : (followRequest { g with ending := { g.ending with fresh := false } }).tables = g.tables := by
    unfold followRequest
    split <;> rfl
  hC.look fun _ => hC.bind (change fun _ => rfl) fun _ => hC.bind (runScripts _) fun _ =>
    hC.bind (change follow) fun _ => hC.bind (startObjects _) fun _ => hC.bind checkOver fun _ =>
      hC.look fun _ => .ite drawObjects (hC.value _)

theorem dropAll : KeepsValid (dropBehind (-1)) := by
  intro g
  refine (dropBehind_leads (-1) g).mono (fun _ g' h _ => ?_) fun _ _ => trivial
  obtain ⟨s, hground, ⟨-, rfl⟩ | ⟨i, hi, -⟩⟩ := h
  · have hstock : g'.tables.stock = Stock.empty := congrArg Ground.stock hground
    refine ⟨hstock ▸ Stock.partitioned_empty, fun i hi => ?_⟩
    rw [show g'.tables.objectsCount = 0 from congrArg Stock.objectsCount hstock] at hi
    exact absurd hi (Nat.not_lt_zero i)
  · omega

theorem finishStory : KeepsValid finishStory :=
  have hC := chains_valid
  have hC' := Chains.same tables
  hC.look fun _ => .ite (hC.bind (of_tables unseen_tables.showActs.stopMusic) fun _ => hC.bind dropAll fun _ =>
    hC.bind (change fun _ => rfl) fun _ => hC.bind (of_tables (hC'.bind (unseen_tables.showActs.playVideo _) fun _ => hC'.value _)) fun _ => change fun _ => rfl)
    (hC.value _)

theorem objectsFrame : KeepsValid objectsFrame := by
  have hC := chains_valid
  have story : KeepsValid (do
      if (← get).tables.loaded = .movies then Game.sceneFrame
      Game.finishStory) :=
    hC.look fun _ => .ite (hC.bind sceneFrame fun _ => finishStory) finishStory
  exact hC.bind (change fun _ => rfl) fun _ => hC.look fun _ =>
    .ite (hC.bind (change fun _ => rfl) fun _ => story) story

end KeepsValid

/-! ### Looking up what objects show -/

/-- The animation of an object is found by the motion that was drawn. -/
theorem Valid.exists_animation (hg : g.Valid) {i : Nat} (hi : i < g.tables.objectsCount)
    (hactive : (g.object i).state ≠ 0 ∨ (g.object i).statePrev ≠ 0) :
    ∃ a, (do g.tables.animation (← g.tables.animationOf (g.object i)) : Except GameError Animation) = .ok a := by
  obtain ⟨m, hm, hget⟩ := SceneTables.exists_motion (hg.stands i hi hactive).1
  obtain ⟨k, a, hanim, ha, -⟩ := hg.partitioned.named hget
  have hk : k < g.tables.animations.size := (Array.getElem?_eq_some_iff.mp ha).1
  have hcheck := @Table.check_of_bounds .animations g.tables.animations.size m.anim.toInt (by omega)
  exact ⟨_, except_bind_eq_ok.mpr ⟨m.anim, except_bind_eq_ok.mpr ⟨m, hm, rfl⟩, except_bind_eq_ok.mpr ⟨_, hcheck, rfl⟩⟩⟩

/-- The frame of an object that is to be drawn is found. -/
theorem Valid.framed (hg : g.Valid) {i : Nat} (hi : i ∈ g.visibleSlots) : g.Framed i := by
  obtain ⟨hi, hvisible⟩ := List.mem_filter.mp hi
  refine SceneTables.exists_frame (hg.stands i (List.mem_range.mp hi) (Or.inl fun hstate => ?_)).2.2.1
  have hstate : (g.object i).state = 0 := hstate
  simp [SceneObject.isVisibleAt, SceneObject.stateAt, hstate] at hvisible

/-- When the scripts of a scene have run and its objects have moved on, the scene is valid again. While they run,
the animation of an object is found whenever its script is looked for; and drawing a valid scene fails only for
sprites that cannot be unpacked. -/
theorem objectsFrame_valid (hg : g.Valid) :
    (∀ g', objectsFrame g = .ok () g' → g'.Valid) ∧
      (∀ (front : List Nat) (i : Nat) (g' : Game), runScripts front g = .ok () g' → i < g'.tables.objectsCount →
        (g'.object i).statePrev ≠ 0 →
        ∃ a, (do g'.tables.animation (← g'.tables.animationOf (g'.object i)) : Except GameError Animation) = .ok a) ∧
      (∀ i ∈ g.visibleSlots, g.Framed i) ∧
      ∀ e g', drawScene g = .error e g' → ∃ c, e = .codec c := by
  refine ⟨fun g' h => (KeepsValid.objectsFrame g).of_ok h hg, fun front i g' h hi hprev => ?_, fun i hi => hg.framed hi,
    fun e g' => drawScene_error fun i hi => hg.framed hi⟩
  exact ((KeepsValid.runScripts front g).of_ok h hg).exists_animation hi (Or.inr hprev)

/-! ### A bird -/

/-- A frame of a bird. -/
def birdFrame (h : FrameHeader) : SpriteFrame := { pointFrame with header := h }

theorem maxObjects_pos : 0 < maxObjects := by decide

/-- A bird that flaps its wings, in frames of different sizes. -/
def birdGame : Game :=
  { (default : Game) with
    tables := {
      objects := (Vector.replicate maxObjects {}).set 0
        { state := 1, statePrev := 1, flip := flipX, flipPrev := flipX, x := 100, y := 50 } maxObjects_pos
      objectsCount := 1
      animations := #[{ name := "BIRD", motionsCount := 1, objectsCount := 1 }]
      motions := #[{ count := 2 }]
      frames := #[birdFrame ⟨1, 4, 2, 1, 3⟩, birdFrame ⟨0, 6, 3, 2, 5⟩]
      loaded := .movies } }

theorem valid_birdGame : birdGame.Valid where
  partitioned := {
    motions := ⟨rfl, by decide, rfl⟩
    frames := ⟨rfl, by decide, rfl⟩
    owner := fun i a n m ha hm _ => by
      have hi : i < 1 := (Array.getElem?_eq_some_iff.mp ha).1
      have hn : n < 1 := (Array.getElem?_eq_some_iff.mp hm).1
      obtain rfl : i = 0 := by omega
      obtain rfl : n = 0 := by omega
      cases hm
      rfl
    sounds := ⟨by decide, by decide, Int.le_refl 0⟩
    unloaded := fun h => nomatch h
    fewAnimations := by decide
    fewMotions := by decide
    fewFrames := by decide
    fewSounds := by decide }
  stands i hi := by
    obtain rfl : i = 0 := Nat.lt_one_iff.mp hi
    exact fun _ => ⟨by decide, by decide, by decide, by decide⟩

theorem objectsFrame_valid_birdGame : birdGame.Valid ∧ (∀ g', objectsFrame birdGame = .ok () g' → g'.Valid) ∧
    (∀ (front : List Nat) (i : Nat) (g' : Game), runScripts front birdGame = .ok () g' → i < g'.tables.objectsCount →
      (g'.object i).statePrev ≠ 0 →
      ∃ a, (do g'.tables.animation (← g'.tables.animationOf (g'.object i)) : Except GameError Animation) = .ok a) ∧
    (∀ i ∈ birdGame.visibleSlots, birdGame.Framed i) ∧
    ∀ e g', drawScene birdGame = .error e g' → ∃ c, e = .codec c :=
  ⟨valid_birdGame, objectsFrame_valid valid_birdGame⟩

end Game

end Adventure
