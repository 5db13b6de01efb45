import Adventure.Proofs.Game.Moving
import Mathlib.Data.Int.ModEq
import Mathlib.Tactic.Ring

/-! Animation does not drift. A frame hangs at its anchor, a flipped one on its other side; the step to the
next frame and the turn to another one leave the anchor where it is, but for what sixteen bits cannot hold. -/

namespace Adventure

theorem toInt_toInt16 (i : Int) : i.toInt16.toInt ≡ i [ZMOD 2 ^ 16] := by
  change (Int16.ofInt i).toInt % _ = _
  rw [Int16.toInt_ofInt]
  exact Int.bmod_emod

/-- Numbers of sixteen bits that are equal up to what these cannot hold. -/
theorem eq_of_modEq {a b : Int16} (h : a.toInt ≡ b.toInt [ZMOD 2 ^ 16]) : a = b := by
  apply Int16.toInt_inj.mp
  have ha := a.le_toInt
  have ha' := a.toInt_lt
  have hb := b.le_toInt
  have hb' := b.toInt_lt
  unfold Int.ModEq at h
  omega

namespace FrameHeader

/-- Where the anchor lies on an axis when the frame is drawn at a place. A flipped frame hangs on its other side. -/
def anchorAt (h : FrameHeader) (flip : Int16) (a : Axis) (pos : Int) : Int :=
  if a = .x ∧ flip = flipX then pos + a.size h + a.anchor h else pos - a.anchor h

theorem anchorAt_congr (h : FrameHeader) (flip : Int16) (a : Axis) {pos pos' : Int} (hpos : pos ≡ pos' [ZMOD 2 ^ 16]) :
    h.anchorAt flip a pos ≡ h.anchorAt flip a pos' [ZMOD 2 ^ 16] := by
  unfold anchorAt
  split
  · exact (hpos.add_right _).add_right _
  · exact hpos.sub_right _

/-- A frame that hangs at a point is drawn at one place. -/
theorem anchorAt_inj {h : FrameHeader} {flip : Int16} {a : Axis} {x y : Int16}
    (hxy : h.anchorAt flip a x.toInt ≡ h.anchorAt flip a y.toInt [ZMOD 2 ^ 16]) : x = y := by
  unfold anchorAt at hxy
  split at hxy
  · exact eq_of_modEq ((hxy.add_right_cancel' _).add_right_cancel' _)
  · rw [sub_eq_add_neg, sub_eq_add_neg] at hxy
    exact eq_of_modEq (hxy.add_right_cancel' _)

end FrameHeader

namespace SceneObject

variable {o : SceneObject} {frame : Int16} {last next : FrameHeader}

/-- The object hangs at a point at a moment. -/
def HangsAt (t : SceneTables) (o : SceneObject) (m : Moment) (p : Axis → Int) : Prop :=
  ∃ h, t.frameHeader (o.frameAt m) = .ok h ∧ ∀ a, h.anchorAt o.flip a (o.posAt a m).toInt ≡ p a [ZMOD 2 ^ 16]

/-- The place of the next frame, before it is cut to sixteen bits. -/
theorem posAt_advanced (a : Axis) : (o.advanced frame last next).posAt a .next =
    (if a = .x ∧ o.flip = flipX then
      (o.posAt a .next).toInt + (a.anchor last - a.anchor next) + a.size last - a.size next
    else (o.posAt a .next).toInt - (a.anchor last - a.anchor next)).toInt16 := by
  cases a with
  | x => simp only [true_and]; rfl
  | y => rfl

theorem posAt_inFrame {motion : Int16} (a : Axis) : (SceneTables.inFrame o motion frame last next none none).posAt a .next =
    (if a = .x ∧ o.flipPrev = flipX then
      (o.posAt a .last).toInt + a.anchor last - a.anchor next + a.size last - a.size next
    else (o.posAt a .last).toInt - a.anchor last + a.anchor next).toInt16 := by
  cases a with
  | x => simp only [true_and]; rfl
  | y => rfl

/-- The step to the next frame leaves the anchor. -/
theorem anchorAt_advanced (a : Axis) :
    next.anchorAt o.flip a ((o.advanced frame last next).posAt a .next).toInt ≡
      last.anchorAt o.flip a (o.posAt a .next).toInt [ZMOD 2 ^ 16] := by
  rw [posAt_advanced]
  refine (next.anchorAt_congr o.flip a (toInt_toInt16 _)).trans (congrArg (· % 2 ^ 16) ?_)
  unfold FrameHeader.anchorAt
  split <;> ring

/-- So does the turn to another frame, seen from what was drawn last. -/
theorem anchorAt_inFrame {motion : Int16} (hflip : o.flipPrev = o.flip) (a : Axis) :
    next.anchorAt o.flip a ((SceneTables.inFrame o motion frame last next none none).posAt a .next).toInt ≡
      last.anchorAt o.flip a (o.posAt a .last).toInt [ZMOD 2 ^ 16] := by
  rw [posAt_inFrame, hflip]
  refine (next.anchorAt_congr o.flip a (toInt_toInt16 _)).trans (congrArg (· % 2 ^ 16) ?_)
  unfold FrameHeader.anchorAt
  split <;> ring

end SceneObject

namespace Interpreter

variable {α β : Type} {g g' : Game} {s : Script}

/-- Steps of a script in a row that succeed are steps that succeed. -/
theorem run_bind {m : Interpreter α} {f : α → Interpreter β} {r : β × Script} :
    (m >>= f).run s g = .ok r g' ↔ ∃ a s' g₁, m.run s g = .ok (a, s') g₁ ∧ (f a).run s' g₁ = .ok r g' :=
  bind_eq_ok.trans Prod.exists

theorem run_read {m : Operand α} {r : α × Script} : (read m).run s g = .ok r g' ↔ m s = .ok r ∧ g = g' := by
  change read m s g = .ok r g' ↔ _
  unfold read
  cases m s with
  | ok a =>
    constructor
    · intro h
      cases h
      exact ⟨rfl, rfl⟩
    · rintro ⟨h, rfl⟩
      cases h
      rfl
  | error e =>
    constructor
    · intro h
      cases h
    · rintro ⟨h, -⟩
      cases h

theorem run_lift {e : Except GameError α} {r : α × Script} :
    (ofExcept e : Interpreter α).run s g = .ok r g' ↔ e = .ok r.1 ∧ s = r.2 ∧ g = g' := by
  cases e with
  | ok a =>
    constructor
    · intro h
      cases h
      exact ⟨rfl, rfl, rfl⟩
    · rintro ⟨h, rfl, rfl⟩
      cases h
      rfl
  | error e =>
    constructor
    · intro h
      cases h
    · rintro ⟨h, -⟩
      cases h

end Interpreter

/-- The operands of a turn that keeps the anchor say nothing of a place. -/
theorem Operator.frameOperands_keep {withFrame : Bool} {s s' : Script} {motion frame : Int} {dx dy : Option Int}
    (h : frameOperands withFrame .keep s = .ok ((motion, frame, dx, dy), s')) : dx = none ∧ dy = none := by
  obtain ⟨_, _, -, h⟩ := Operand.bind_eq_ok.mp h
  obtain ⟨_, _, -, h⟩ := Operand.bind_eq_ok.mp h
  cases h
  exact ⟨rfl, rfl⟩

theorem SceneTables.changeFrame_keep {t : SceneTables} {o o' : SceneObject} {other : Option Nat} {motion frame : Int}
    (h : t.changeFrame o other motion frame none none = .ok o') :
    o' = o ∨ ∃ (motion frame : Int16) (last next : FrameHeader), t.frameHeader o.frameNumPrev = .ok last ∧
      t.frameHeader frame = .ok next ∧ o' = inFrame o motion frame last next none none := by
  unfold changeFrame at h
  split at h
  · cases h
    exact Or.inl rfl
  · obtain ⟨_, -, h⟩ := except_bind_eq_ok.mp h
    obtain ⟨_, -, h⟩ := except_bind_eq_ok.mp h
    obtain ⟨last, hlast, h⟩ := except_bind_eq_ok.mp h
    obtain ⟨next, hnext, h⟩ := except_bind_eq_ok.mp h
    cases h
    exact Or.inr ⟨_, _, last, next, hlast, hnext, rfl⟩

namespace Game

variable {i : Nat} {g g' g₁ g₂ : Game}

/-- A turn to another frame that gives no place. -/
theorem object_of_turn {withFrame : Bool} {statement : Nat} {s : Script} {r : Unit × Script}
    (h : ((Operator.frame withFrame .keep).exec i statement).run s g = .ok r g') :
    g'.object i = g.object i ∨ ∃ (motion frame : Int16) (last next : FrameHeader),
      g.tables.frameHeader (g.object i).frameNumPrev = .ok last ∧ g.tables.frameHeader frame = .ok next ∧
        g'.object i = SceneTables.inFrame (g.object i) motion frame last next none none := by
  obtain ⟨_, s₁, g₁, hgame, h⟩ := Interpreter.run_bind.mp h
  cases hgame
  obtain ⟨ref, s₂, g₂, href, h⟩ := Interpreter.run_bind.mp h
  obtain ⟨-, rfl⟩ := Interpreter.run_read.mp href
  cases hslot : ref.slot? i with
  | none =>
    rw [hslot] at h
    obtain ⟨-, rfl⟩ := Interpreter.run_read.mp h
    exact Or.inl rfl
  | some j =>
    rw [hslot] at h
    obtain ⟨⟨motion, number, dx, dy⟩, s₃, g₃, hread, h⟩ := Interpreter.run_bind.mp h
    obtain ⟨hoperands, rfl⟩ := Interpreter.run_read.mp hread
    obtain ⟨rfl, rfl⟩ := Operator.frameOperands_keep hoperands
    obtain ⟨_, s₄, g₄, hgame, h⟩ := Interpreter.run_bind.mp h
    cases hgame
    obtain ⟨o, s₅, g₅, hlift, h⟩ := Interpreter.run_bind.mp h
    obtain ⟨ho, rfl, rfl⟩ := Interpreter.run_lift.mp hlift
    cases h
    rw [Game.object, SceneTables.object_modifyObject]
    split
    · exact SceneTables.changeFrame_keep ho
    · exact Or.inl rfl

/-! ### Runs of frames -/

variable {p : Axis → Int}

/-- An object that moves on hangs where it hung, and so does what was drawn of it. -/
theorem Advances.hangs {t : SceneTables} {o o' : SceneObject} (h : Advances t o o') (ho : o.HangsAt t .next p) :
    o'.flipPrev = o'.flip ∧ ∀ m, o'.HangsAt t m p := by
  obtain ⟨-, frame, last, next, hlast, hnext, rfl⟩ := h
  obtain ⟨header, hheader, hanchor⟩ := ho
  obtain rfl : last = header := Except.ok.inj (hlast.symm.trans hheader)
  refine ⟨rfl, fun m => ?_⟩
  cases m with
  | last =>
    refine ⟨last, hlast, fun a => ?_⟩
    cases a with
    | x => exact hanchor .x
    | y => exact hanchor .y
  | next =>
    refine ⟨next, hnext, fun a => ?_⟩
    have hkept := @SceneObject.anchorAt_advanced ({ o with statePrev := o.state }.drawn) frame last next a
    refine hkept.trans ?_
    cases a with
    | x => exact hanchor .x
    | y => exact hanchor .y

/-- What can become of an object from one moment of a run to the next: the scene is drawn, a script turns it
to another frame without giving a place, or something happens that leaves it where it is. -/
inductive Step (i : Nat) (g : Game) : Game → Prop
  | draw {g' : Game} (h : drawObjects g = .ok () g') : Step i g g'
  | turn {g' : Game} {withFrame : Bool} {statement : Nat} {s : Script} {r : Unit × Script}
    (h : ((Operator.frame withFrame .keep).exec i statement).run s g = .ok r g') : Step i g g'
  | aside {g' : Game} (hstock : g'.tables.stock = g.tables.stock) (hpos : (g'.object i).posAt = (g.object i).posAt)
    (hframe : (g'.object i).frameAt = (g.object i).frameAt) (hflip : (g'.object i).flipAt = (g.object i).flipAt) :
    Step i g g'

/-- A run in which an object stays animated, and the same way round. -/
inductive Animates (i : Nat) (g : Game) : Game → Prop
  | start : Animates i g g
  | step {g₁ g₂ : Game} (h : Animates i g g₁) (hstep : Step i g₁ g₂) (hstate : (g₂.object i).state = 1)
    (hflip : (g₂.object i).flip = (g₁.object i).flip) : Animates i g g₂

theorem Step.stock (h : Step i g g') : g'.tables.stock = g.tables.stock := by
  cases h with
  | draw hdraw => exact congrArg Ground.stock ((idle_ground.drawObjects g).of_ok hdraw)
  | turn hturn => exact congrArg Ground.stock ((Operator.acts_exec _ _ _ g _).of_ok hturn).1.ground
  | aside hstock => exact hstock

theorem Animates.stock (h : Animates i g g') : g'.tables.stock = g.tables.stock := by
  induction h with
  | start => rfl
  | step _ hstep _ _ ih => exact hstep.stock.trans ih

theorem Animates.flip (h : Animates i g g') : (g'.object i).flip = (g.object i).flip := by
  induction h with
  | start => rfl
  | step _ _ _ hflip ih => exact hflip.trans ih

theorem HangsAt.congr {t t' : SceneTables} {o : SceneObject} {m : Moment} (h : o.HangsAt t m p) (ht : t'.stock = t.stock) :
    o.HangsAt t' m p := by
  rwa [SceneObject.HangsAt, SceneTables.frameHeader_congr ht]

/-- The object in a slot is animated, and hangs at a point. -/
structure Hangs (i : Nat) (p : Axis → Int) (g : Game) : Prop where
  used : i < g.tables.objectsCount
  animated : (g.object i).state = 1
  turned : (g.object i).flipPrev = (g.object i).flip
  anchored : ∀ m, (g.object i).HangsAt g.tables m p

theorem hangs_of_drawObjects (h : drawObjects g = .ok () g') (hi : i < g.tables.objectsCount)
    (hstate : (g'.object i).state = 1) (ho : (g.object i).HangsAt g.tables .next p) : Hangs i p g' := by
  have hstock := Step.stock (i := i) (.draw h)
  have hcount : g'.tables.objectsCount = g.tables.objectsCount := congrArg Stock.objectsCount hstock
  obtain ⟨hturned, hanchored⟩ := (advances_of_drawObjects h hi hstate).hangs ho
  exact ⟨hcount ▸ hi, hstate, hturned, fun m => HangsAt.congr (hanchored m) hstock⟩

/-- An object that is turned to another frame hangs where it hung. -/
theorem hangs_inFrame {t : SceneTables} {o : SceneObject} {motion frame : Int16} {last next : FrameHeader}
    (hturned : o.flipPrev = o.flip) (ho : o.HangsAt t .last p) (hlast : t.frameHeader o.frameNumPrev = .ok last)
    (hnext : t.frameHeader frame = .ok next) (m : Moment) :
    (SceneTables.inFrame o motion frame last next none none).HangsAt t m p := by
  obtain ⟨header, hheader, hanchor⟩ := ho
  obtain rfl : last = header := Except.ok.inj (hlast.symm.trans hheader)
  cases m with
  | last =>
    refine ⟨last, hlast, fun a => ?_⟩
    cases a with
    | x => exact hanchor .x
    | y => exact hanchor .y
  | next =>
    have hkept := @SceneObject.anchorAt_inFrame o frame last next motion hturned
    exact ⟨next, hnext, fun a => (hkept a).trans (hanchor a)⟩

theorem Hangs.step (h : Hangs i p g) (hstep : Step i g g') (hstate : (g'.object i).state = 1)
    (hflip : (g'.object i).flip = (g.object i).flip) : Hangs i p g' := by
  have hstock := hstep.stock
  have hcount : g'.tables.objectsCount = g.tables.objectsCount := congrArg Stock.objectsCount hstock
  have hused := hcount ▸ h.used
  cases hstep with
  | draw hdraw => exact hangs_of_drawObjects hdraw h.used hstate (h.anchored .next)
  | turn hturn =>
    rcases object_of_turn hturn with ho | ⟨motion, frame, last, next, hlast, hnext, ho⟩
    · refine ⟨hused, hstate, by rw [ho, h.turned], fun m => HangsAt.congr ?_ hstock⟩
      rw [ho]
      exact h.anchored m
    · refine ⟨hused, hstate, by rw [ho]; exact h.turned, fun m => HangsAt.congr ?_ hstock⟩
      rw [ho]
      exact hangs_inFrame h.turned (h.anchored .last) hlast hnext m
  | aside _ hpos hframe hsame =>
    refine ⟨hused, hstate, ?_, fun m => HangsAt.congr ?_ hstock⟩
    · exact ((congrFun hsame .last).trans h.turned).trans hflip.symm
    · have hm := h.anchored m
      rwa [SceneObject.HangsAt, hpos, hframe, hflip]

theorem Animates.hangs (h : Animates i g g') (hg : Hangs i p g) : Hangs i p g' := by
  induction h with
  | start => exact hg
  | step _ hstep hstate hflip ih => exact ih.step hstep hstate hflip

/-- The anchor of an animated object stays in its place from the time the scene is drawn on, in what is
drawn next and in what was drawn last; and in the same frame the object is at the same place. -/
theorem anchor_stays (h : drawObjects g = .ok () g₁) (hi : i < g.tables.objectsCount)
    (hstate : (g₁.object i).state = 1) :
    (∃ p, ∀ g', Animates i g₁ g' → ∀ m, (g'.object i).HangsAt g'.tables m p) ∧
      ∀ g' g'', Animates i g₁ g' → Animates i g₁ g'' → ∀ m m', (g'.object i).frameAt m = (g''.object i).frameAt m' →
        ∀ a, (g'.object i).posAt a m = (g''.object i).posAt a m' := by
  obtain ⟨_, last, _, hlast, -⟩ := (advances_of_drawObjects h hi hstate).moved
  let p (a : Axis) : Int := last.anchorAt (g.object i).flip a ((g.object i).posAt a .next).toInt
  have hstart : Hangs i p g₁ := hangs_of_drawObjects h hi hstate ⟨last, hlast, fun _ => rfl⟩
  refine ⟨⟨p, fun g' hrun => (hrun.hangs hstart).anchored⟩, fun g' g'' hrun hrun' m m' hframe a => ?_⟩
  obtain ⟨header, hheader, hanchor⟩ := (hrun.hangs hstart).anchored m
  obtain ⟨header', hheader', hanchor'⟩ := (hrun'.hangs hstart).anchored m'
  rw [hframe, SceneTables.frameHeader_congr (hrun.stock.trans hrun'.stock.symm), hheader'] at hheader
  cases hheader
  have hsame := (hanchor a).trans (hanchor' a).symm
  rw [hrun.flip, hrun'.flip] at hsame
  exact FrameHeader.anchorAt_inj hsame

/-- The bird is where it was each time that its wings are up. -/
theorem anchor_stays_birdGame : ∃ g₁, drawObjects birdGame = .ok () g₁ ∧ 0 < birdGame.tables.objectsCount ∧
    (g₁.object 0).state = 1 ∧
    (∃ p, ∀ g', Animates 0 g₁ g' → ∀ m, (g'.object 0).HangsAt g'.tables m p) ∧
      ∀ g' g'', Animates 0 g₁ g' → Animates 0 g₁ g'' → ∀ m m', (g'.object 0).frameAt m = (g''.object 0).frameAt m' →
        ∀ a, (g'.object 0).posAt a m = (g''.object 0).posAt a m' := by
  obtain ⟨frame, stage, ui, tables, h⟩ := drawObjects_ok drawable_birdGame rfl movesOn_birdGame
  have hstate : (({ birdGame with frame, stage, ui, tables } : Game).object 0).state = 1 :=
    state_drawObjects (i := 0) h (by decide)
  exact ⟨_, h, by decide, hstate, anchor_stays h (by decide) hstate⟩

end Game

end Adventure
