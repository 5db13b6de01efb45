import Adventure.Proofs.Game.Valid
import Adventure.Proofs.Script.Remainders
import Mathlib.Algebra.Order.Ring.Int

/-! Objects that walk onto their grid. How far an object is past the last point of its grid is a number below the period;
the nearer point lies behind it or in front of it. Each time the operator is executed the object goes towards that point by
a step, or by what is left of the way if that is less, so it comes to the point and stays there. -/

namespace Adventure

open Word (FitsShort)

/-! ### Towards the nearer point -/

namespace Grid

/-- How far it is to the nearer point of the grid from a place past the last one. -/
def distance (past period : Int) : Int := min past (period - past)

/-- The way to the nearer point. It leads back up to half of the period, and on from there. -/
def goal (past period : Int) : Int := if past ≤ period / 2 then -past else period - past

/-- The part of the way that a step goes. -/
def move (past period step : Int) : Int := if past ≤ period / 2 then -min step past else min step (period - past)

variable {past period step : Int}

theorem distance_eq_natAbs (hleast : 0 ≤ past) (hmost : past < period) : distance past period = (goal past period).natAbs := by
  unfold distance goal
  omega

theorem distance_eq_zero_iff (hmost : past < period) : distance past period = 0 ↔ past = 0 := by
  unfold distance
  omega

/-- A step goes all the way, or its length. -/
theorem move_eq (hleast : 0 ≤ past) (hmost : past < period) (hstep : 0 ≤ step) :
    move past period step = max (-step) (min step (goal past period)) := by
  unfold move goal
  omega

/-- A step ends on the way. -/
theorem move_mem (hleast : 0 ≤ past) (hmost : past < period) (hstep : 0 ≤ step) :
    min 0 (goal past period) ≤ move past period step ∧ move past period step ≤ max 0 (goal past period) := by
  rw [move_eq hleast hmost hstep]
  omega

/-- What a step leaves of the way is the way from where it leads. -/
theorem goal_move (hleast : 0 ≤ past) (hmost : past < period) (hstep : 0 ≤ step) :
    goal ((past + move past period step) % period) period = goal past period - move past period step := by
  by_cases hnear : past ≤ period / 2
  · rw [move, if_pos hnear, Int.emod_eq_of_lt (by omega) (by omega), goal, goal]
    omega
  · rw [move, if_neg hnear]
    by_cases hreaches : period - past ≤ step
    · have hpoint : past + min step (period - past) = period := by omega
      rw [hpoint, Int.emod_self, goal, goal]
      omega
    · rw [Int.emod_eq_of_lt (by omega) (by omega), goal, goal]
      omega

/-- A step makes up for its length, or for the whole distance. -/
theorem distance_move (hleast : 0 ≤ past) (hmost : past < period) (hstep : 0 ≤ step) :
    distance ((past + move past period step) % period) period = distance past period - min step (distance past period) := by
  have hperiod : 0 < period := by omega
  rw [distance_eq_natAbs (Int.emod_nonneg _ hperiod.ne') (Int.emod_lt_of_pos _ hperiod), goal_move hleast hmost hstep,
    move_eq hleast hmost hstep, distance_eq_natAbs hleast hmost]
  omega

theorem move_zero (hstep : 0 ≤ step) (hperiod : 0 ≤ period) : move 0 period step = 0 := by
  unfold move
  omega

end Grid

namespace SceneObject

variable (o : SceneObject) (a : Axis) (v : Int16)

@[simp] theorem posAt_setPos : (o.setPos a v).posAt a .next = v := by cases a <;> rfl

@[simp] theorem initPos_setPos : (o.setPos a v).initPos a = o.initPos a := by cases a <;> rfl

@[simp] theorem flip_setPos : (o.setPos a v).flip = o.flip := by cases a <;> rfl

@[simp] theorem flipInit_setPos : (o.setPos a v).flipInit = o.flipInit := by cases a <;> rfl

@[simp] theorem setPos_posAt : o.setPos a (o.posAt a .next) = o := by cases a <;> rfl

theorem title_setPos : (o.setPos a v).title = o.title := by cases a <;> rfl

end SceneObject

/-- The numbers of an approach: by how much a mirrored frame is shifted, the period of the grid, where it starts, and how
far the object may go. -/
structure Approach where
  shift : Int
  period : Int16
  start : Int
  step : Int16

/-! ### Where an object is in its grid -/

namespace SceneTables

variable {t u : SceneTables} {i : Nat} {f : SceneObject → SceneObject}

theorem findObject?_congr (htitles : t.titles = u.titles) (hcount : t.objectsCount = u.objectsCount) (name : String) :
    t.findObject? name = u.findObject? name := by
  have byTitle (t : SceneTables) :
      t.findObject? name = (t.titles.toList.take t.objectsCount).findIdx? fun title => title.1 = name := by
    rw [findObject?, activeObjects, titles, Vector.toList_map, ← List.map_take, List.findIdx?_map]
    rfl
  rw [byTitle, byTitle, htitles, hcount]

theorem modifyObject_same (h : f (t.object i) = t.object i) : t.modifyObject i f = t := by
  have hobjects : (t.modifyObject i f).objects = t.objects := by
    refine Vector.ext fun j hj => ?_
    rw [getElem_modifyObject t i f hj, ← object_eq_getElem t hj]
    split
    · rename_i hij
      rw [← hij, h]
    · rfl
  exact congrArg (fun objects => { t with objects }) hobjects

end SceneTables

namespace Operand

variable {t : SceneTables} {o : SceneObject} {a : Axis} {p : Approach} {first now : FrameHeader} {s : Script}

/-- The frames that tell where an object is in its grid are there: the one that it starts with and the one that it is in. -/
structure Framed (t : SceneTables) (o : SceneObject) (first now : FrameHeader) : Prop where
  first : (t.firstFrame o >>= t.frameHeader) = .ok first
  now : t.frameHeader o.frameNum = .ok now

/-- Where an object is, counted from the start of its grid. -/
def gridPlace (o : SceneObject) (a : Axis) (p : Approach) (first now : FrameHeader) : Int :=
  let moved :=
    if o.flip = a.flip then (a.anchor first - a.anchor now + a.size first - a.size now + p.shift).toInt16
    else (a.anchor now - a.anchor first).toInt16
  let turned : Int16 := if o.flipInit = a.flip then (1 - a.size first - p.shift).toInt16 else 0
  (o.posAt a .next).toInt - (o.initPos a).toInt - turned.toInt - moved.toInt - p.start

/-- The place moves with the object, whichever way round it is. -/
theorem gridPlace_setPos (v : Int16) :
    gridPlace (o.setPos a v) a p first now = gridPlace o a p first now + (v.toInt - (o.posAt a .next).toInt) := by
  simp only [gridPlace, SceneObject.posAt_setPos, SceneObject.initPos_setPos, SceneObject.flip_setPos,
    SceneObject.flipInit_setPos]
  omega

theorem Framed.setPos (h : Framed t o first now) (v : Int16) : Framed t (o.setPos a v) first now := by
  cases a <;> exact ⟨h.first, h.now⟩

theorem pastGrid_ok (h : Framed t o first now) (hperiod : 0 < p.period.toInt)
    (hplace : FitsShort (gridPlace o a p first now)) (s : Script) :
    ∃ past : Int16, pastGrid t o a p.shift p.period.toInt p.start s = .ok (past, s) ∧
      past.toInt = gridPlace o a p first now % p.period.toInt := by
  obtain ⟨past, hpast, hmod⟩ := wrapped_ok (gridPlace o a p first now) hperiod s
  obtain ⟨n, hn, hfirst⟩ := except_bind_eq_ok.mp h.first
  refine ⟨past, ?_, hmod⟩
  rw [pastGrid, run_bind (lift_eq_ok.mpr ⟨hn, rfl⟩), run_bind (lift_eq_ok.mpr ⟨hfirst, rfl⟩),
    run_bind (lift_eq_ok.mpr ⟨h.now, rfl⟩), ← hpast, ← Word.toInt_toInt16 hplace]
  rfl

/-- The operands of an approach: an object by its slot, and the numbers. -/
def approach (t : SceneTables) (current : Nat) : Operand (Option Nat × Approach) := do
  let ref ← object t
  let shift ← int
  let period ← word
  let start ← int
  let step ← word
  return (ref.slot? current, ⟨shift, period, start, step⟩)

/-- Operands name objects, and what else the tables hold does not matter. -/
theorem approach_congr {u : SceneTables} (h : ∀ name, t.findObject? name = u.findObject? name) (current : Nat) :
    approach t current = approach u current := by
  unfold approach object
  simp only [h]

end Operand

namespace Game

/-- How far an object is past the last point of its grid. -/
def pastGrid (g : Game) (i : Nat) (a : Axis) (p : Approach) : Operand Int16 :=
  Operand.pastGrid g.tables (g.object i) a p.shift p.period.toInt p.start

/-- The game with an object at another coordinate. -/
def setPos (g : Game) (i : Nat) (a : Axis) (v : Int16) : Game :=
  { g with tables := g.tables.modifyObject i fun o => o.setPos a v }

variable {g : Game} {i : Nat}

theorem object_setPos (hi : i < maxObjects) (a : Axis) (v : Int16) :
    (g.setPos i a v).object i = (g.object i).setPos a v := by
  rw [object, setPos, SceneTables.object_modifyObject, if_pos ⟨rfl, hi⟩, object]

theorem setPos_same (a : Axis) : g.setPos i a ((g.object i).posAt a .next) = g := by
  rw [setPos, SceneTables.modifyObject_same ((g.object i).setPos_posAt a)]

theorem findObject?_setPos (i : Nat) (a : Axis) (v : Int16) (name : String) :
    (g.setPos i a v).tables.findObject? name = g.tables.findObject? name :=
  SceneTables.findObject?_congr (SceneTables.titles_modifyObject (SceneObject.title_setPos _ a v)) rfl name

end Game

namespace Interpreter

variable {α β : Type}

theorem run_game_bind (f : Game → Interpreter β) (s : Script) (g : Game) : (game >>= f).run s g = (f g).run s g := rfl

theorem run_read_bind {m : Operand α} {f : α → Interpreter β} {s t : Script} {x : α} (h : m s = .ok (x, t)) (g : Game) :
    (read m >>= f).run s g = (f x).run t g := by
  change ((read m s : Game.M _) >>= fun r => (f r.1).run r.2) g = _
  unfold read
  rw [h]
  rfl

end Interpreter

namespace Operator

open Interpreter (run_game_bind run_read_bind)
open Operand (Framed gridPlace)

variable {g : Game} {current i : Nat} {a : Axis} {p : Approach} {s s' : Script} {past : Int16} {first now : FrameHeader}

/-! ### One execution -/

/-- The coordinate that an object goes to. -/
def approached (pos past : Int16) (p : Approach) : Int16 :=
  if past ≤ p.period / 2 then pos - min p.step past else pos + min p.step (p.period - past)

theorem toInt_approached {pos : Int16} (hleast : 0 ≤ past.toInt) (hmost : past.toInt < p.period.toInt)
    (hfits : FitsShort (pos.toInt + Grid.move past.toInt p.period.toInt p.step.toInt)) :
    (approached pos past p).toInt = pos.toInt + Grid.move past.toInt p.period.toInt p.step.toInt := by
  have hperiod := (Word.fitsShort_toInt p.period).2
  have hrest : (p.period - past).toInt = p.period.toInt - past.toInt := Word.toInt_sub ⟨by omega, by omega⟩
  have hhalf : (p.period / 2).toInt = p.period.toInt / 2 := Word.toInt_half (by omega)
  unfold approached
  unfold Grid.move at hfits ⊢
  simp only [Int16.le_iff_toInt_le, hhalf]
  split
  · rename_i hnear
    rw [if_pos hnear, ← Word.toInt_min, ← sub_eq_add_neg] at hfits
    rw [Word.toInt_sub hfits, Word.toInt_min]
    omega
  · rename_i hfar
    rw [if_neg hfar, ← hrest, ← Word.toInt_min] at hfits
    rw [Word.toInt_add hfits, Word.toInt_min, hrest]

/-- The operator moves the object and nothing else. -/
theorem exec_approach (hread : Operand.approach g.tables current s = .ok ((some i, p), s'))
    (hpast : g.pastGrid i a p s' = .ok (past, s')) (statement : Nat) :
    ((approach a).exec current statement).run s g =
      .ok ((), s') (g.setPos i a (approached ((g.object i).posAt a .next) past p)) := by
  obtain ⟨ref, s₁, href, hread⟩ := Operand.bind_eq_ok.mp hread
  obtain ⟨shift, s₂, hshift, hread⟩ := Operand.bind_eq_ok.mp hread
  obtain ⟨period, s₃, hperiod, hread⟩ := Operand.bind_eq_ok.mp hread
  obtain ⟨start, s₄, hstart, hread⟩ := Operand.bind_eq_ok.mp hread
  obtain ⟨step, s₅, hstep, hread⟩ := Operand.bind_eq_ok.mp hread
  cases hslot : ref.slot? current with
  | none => rw [hslot] at hread; cases hread
  | some j =>
    rw [hslot] at hread
    cases hread
    unfold Game.pastGrid at hpast
    rw [exec, execApproach, withSlot, run_game_bind, run_read_bind href]
    simp only [hslot]
    rw [run_read_bind hshift, run_read_bind hperiod, run_read_bind hstart, run_read_bind hstep, run_game_bind,
      run_read_bind hpast]
    rfl

/-- An approach stands at a place of a script: it names an object, whose frames are there, and numbers that make sense. -/
structure Walks (g : Game) (current : Nat) (s s' : Script) (i : Nat) (a : Axis) (p : Approach)
    (first now : FrameHeader) : Prop where
  reads : Operand.approach g.tables current s = .ok ((some i, p), s')
  slot : i < maxObjects
  framed : Framed g.tables (g.object i) first now
  period : 0 < p.period.toInt
  step : 0 ≤ p.step.toInt

/-- How far an object is from the nearer point of its grid. -/
def distanceOf (o : SceneObject) (a : Axis) (p : Approach) (first now : FrameHeader) : Int :=
  Grid.distance (gridPlace o a p first now % p.period.toInt) p.period.toInt

/-- The way from an object to the nearer point. -/
def goalOf (o : SceneObject) (a : Axis) (p : Approach) (first now : FrameHeader) : Int :=
  Grid.goal (gridPlace o a p first now % p.period.toInt) p.period.toInt

/-- How far the object goes. -/
def moveOf (o : SceneObject) (a : Axis) (p : Approach) (first now : FrameHeader) : Int :=
  Grid.move (gridPlace o a p first now % p.period.toInt) p.period.toInt p.step.toInt

/-- The place of an object and where its next step leads have a place in sixteen bits. -/
structure StepFits (o : SceneObject) (a : Axis) (p : Approach) (first now : FrameHeader) : Prop where
  place : FitsShort (gridPlace o a p first now)
  nextPos : FitsShort ((o.posAt a .next).toInt + moveOf o a p first now)
  nextPlace : FitsShort (gridPlace o a p first now + moveOf o a p first now)

/-- The game behind an execution. -/
def walked (a : Axis) (current statement : Nat) (s : Script) (g : Game) : Game :=
  after (((approach a).exec current statement).run s) g

namespace Walks

variable (h : Walks g current s s' i a p first now) (statement : Nat)

include h

theorem setPos (v : Int16) : Walks (g.setPos i a v) current s s' i a p first now where
  reads := by rw [Operand.approach_congr (Game.findObject?_setPos i a v), h.reads]
  slot := h.slot
  framed := by
    rw [Game.object_setPos h.slot]
    -- frames are found by the motions and the frames of the tables, which stay
    obtain ⟨hfirst, hnow⟩ := h.framed.setPos (a := a) v
    exact ⟨hfirst, hnow⟩
  period := h.period
  step := h.step

theorem past_mem : 0 ≤ gridPlace (g.object i) a p first now % p.period.toInt ∧
    gridPlace (g.object i) a p first now % p.period.toInt < p.period.toInt :=
  ⟨Int.emod_nonneg _ h.period.ne', Int.emod_lt_of_pos _ h.period⟩

theorem pastGrid_ok (hplace : FitsShort (gridPlace (g.object i) a p first now)) : ∃ past : Int16,
    g.pastGrid i a p s' = .ok (past, s') ∧ past.toInt = gridPlace (g.object i) a p first now % p.period.toInt :=
  Operand.pastGrid_ok h.framed h.period hplace s'

/-- The operator moves the object by a step, or by what is left of the way. -/
theorem exec_ok (hfits : StepFits (g.object i) a p first now) :
    ((approach a).exec current statement).run s g = .ok ((), s') (walked a current statement s g) ∧
      ∃ v : Int16, walked a current statement s g = g.setPos i a v ∧
        v.toInt = ((g.object i).posAt a .next).toInt + moveOf (g.object i) a p first now := by
  obtain ⟨past, hpast, hmod⟩ := h.pastGrid_ok hfits.place
  obtain ⟨hleast, hmost⟩ := h.past_mem
  have hexec := exec_approach h.reads hpast statement
  have hwalked : walked a current statement s g = _ := after_of_ok hexec
  refine ⟨hwalked ▸ hexec, _, hwalked, ?_⟩
  rw [← hmod] at hleast hmost
  rw [moveOf, ← hmod]
  refine toInt_approached hleast hmost ?_
  rw [hmod]
  exact hfits.nextPos

theorem again (hfits : StepFits (g.object i) a p first now) :
    Walks (walked a current statement s g) current s s' i a p first now := by
  obtain ⟨-, v, hv, -⟩ := h.exec_ok statement hfits
  rw [hv]
  exact h.setPos v

theorem posAt_walked (hfits : StepFits (g.object i) a p first now) :
    (((walked a current statement s g).object i).posAt a .next).toInt =
      ((g.object i).posAt a .next).toInt + moveOf (g.object i) a p first now := by
  obtain ⟨-, v, hwalked, hv⟩ := h.exec_ok statement hfits
  rw [hwalked, Game.object_setPos h.slot, SceneObject.posAt_setPos, hv]

theorem gridPlace_walked (hfits : StepFits (g.object i) a p first now) :
    gridPlace ((walked a current statement s g).object i) a p first now =
      gridPlace (g.object i) a p first now + moveOf (g.object i) a p first now := by
  obtain ⟨-, v, hwalked, hv⟩ := h.exec_ok statement hfits
  rw [hwalked, Game.object_setPos h.slot, Operand.gridPlace_setPos, hv]
  omega

/-- What a step makes up for is its length, or the whole distance. -/
theorem distanceOf_walked (hfits : StepFits (g.object i) a p first now) :
    distanceOf ((walked a current statement s g).object i) a p first now =
      distanceOf (g.object i) a p first now - min p.step.toInt (distanceOf (g.object i) a p first now) := by
  rw [distanceOf, h.gridPlace_walked statement hfits, ← Int.emod_add_emod]
  exact Grid.distance_move h.past_mem.1 h.past_mem.2 h.step

theorem goalOf_walked (hfits : StepFits (g.object i) a p first now) :
    goalOf ((walked a current statement s g).object i) a p first now =
      goalOf (g.object i) a p first now - moveOf (g.object i) a p first now := by
  rw [goalOf, h.gridPlace_walked statement hfits, ← Int.emod_add_emod]
  exact Grid.goal_move h.past_mem.1 h.past_mem.2 h.step

/-- On a point of its grid the object stays where it is. -/
theorem walked_eq_self (hfits : StepFits (g.object i) a p first now)
    (hpoint : gridPlace (g.object i) a p first now % p.period.toInt = 0) : walked a current statement s g = g := by
  obtain ⟨-, v, hwalked, hv⟩ := h.exec_ok statement hfits
  have hstays : moveOf (g.object i) a p first now = 0 := by
    rw [moveOf, hpoint, Grid.move_zero h.step h.period.le]
  rw [hstays, Int.add_zero] at hv
  rw [hwalked, Int16.toInt_inj.mp hv, Game.setPos_same]

/-! ### Repetitions -/

/-- Each repetition makes up for a step, until nothing is left of the distance. -/
theorem iterate (hfits : ∀ n, StepFits (((walked a current statement s)^[n] g).object i) a p first now) (n : Nat) :
    Walks ((walked a current statement s)^[n] g) current s s' i a p first now ∧
      distanceOf (((walked a current statement s)^[n] g).object i) a p first now =
        distanceOf (g.object i) a p first now - min (n * p.step.toInt) (distanceOf (g.object i) a p first now) := by
  induction n with
  | zero =>
    have hnone : 0 ≤ distanceOf (g.object i) a p first now := by
      obtain ⟨hleast, hmost⟩ := h.past_mem
      unfold distanceOf Grid.distance
      omega
    refine ⟨h, ?_⟩
    simp only [Function.iterate_zero_apply, Nat.cast_zero, zero_mul]
    omega
  | succ n ih =>
    obtain ⟨hwalks, hdistance⟩ := ih
    rw [Function.iterate_succ_apply']
    refine ⟨hwalks.again statement (hfits n), ?_⟩
    have hstep := h.step
    rw [hwalks.distanceOf_walked statement (hfits n), hdistance, Nat.cast_succ, add_one_mul]
    omega

/-- As many repetitions as the distance has pixels bring the object onto a point. -/
theorem arrives (hstep : 0 < p.step.toInt)
    (hfits : ∀ n, StepFits (((walked a current statement s)^[n] g).object i) a p first now) :
    ∃ N, gridPlace (((walked a current statement s)^[N] g).object i) a p first now % p.period.toInt = 0 := by
  have henough : distanceOf (g.object i) a p first now ≤ (distanceOf (g.object i) a p first now).toNat * p.step.toInt :=
    (Int.self_le_toNat _).trans (le_mul_of_one_le_right (Int.natCast_nonneg _) hstep)
  obtain ⟨hwalks, hdistance⟩ := h.iterate statement hfits (distanceOf (g.object i) a p first now).toNat
  rw [min_eq_right henough, Int.sub_self] at hdistance
  exact ⟨_, (Grid.distance_eq_zero_iff hwalks.past_mem.2).mp hdistance⟩

end Walks

/-- The place of an object and the point that it goes to have a place in sixteen bits. -/
structure WayFits (o : SceneObject) (a : Axis) (p : Approach) (first now : FrameHeader) : Prop where
  place : FitsShort (gridPlace o a p first now)
  pointPos : FitsShort ((o.posAt a .next).toInt + goalOf o a p first now)
  pointPlace : FitsShort (gridPlace o a p first now + goalOf o a p first now)

namespace Walks

variable (h : Walks g current s s' i a p first now) (statement : Nat)

include h

theorem stepFits (hway : WayFits (g.object i) a p first now) : StepFits (g.object i) a p first now := by
  obtain ⟨hleast, hmost⟩ := Grid.move_mem h.past_mem.1 h.past_mem.2 h.step
  have between {v : Int} (hv : FitsShort v) (hpoint : FitsShort (v + goalOf (g.object i) a p first now)) :
      FitsShort (v + moveOf (g.object i) a p first now) := by
    unfold goalOf at hpoint
    unfold FitsShort moveOf at *
    omega
  exact ⟨hway.place, between (Word.fitsShort_toInt _) hway.pointPos, between hway.place hway.pointPlace⟩

/-- The point stays the same while the object goes there. -/
theorem wayFits_walked (hway : WayFits (g.object i) a p first now) :
    WayFits ((walked a current statement s g).object i) a p first now := by
  have hfits := h.stepFits hway
  have hgoal := h.goalOf_walked statement hfits
  refine ⟨?_, ?_, ?_⟩
  · rw [h.gridPlace_walked statement hfits]
    exact hfits.nextPlace
  · rw [h.posAt_walked statement hfits, hgoal, add_add_sub_cancel]
    exact hway.pointPos
  · rw [h.gridPlace_walked statement hfits, hgoal, add_add_sub_cancel]
    exact hway.pointPlace

/-- Where the way fits, so does each step of it. -/
theorem stepFits_iterate (hway : WayFits (g.object i) a p first now) (n : Nat) :
    StepFits (((walked a current statement s)^[n] g).object i) a p first now := by
  induction n generalizing g with
  | zero => exact h.stepFits hway
  | succ n ih => exact ih (h.again statement (h.stepFits hway)) (h.wayFits_walked statement hway)

end Walks

/-- An object walks onto its grid. It is past the last point by less than a period. One execution brings it nearer to the
nearer point by a step, or by the whole distance; so repeated executions bring it onto the point, and there they leave the
game as it is. -/
theorem approach_onto_grid (h : Walks g current s s' i a p first now) (statement : Nat) :
    (StepFits (g.object i) a p first now → ∃ past past' v : Int16,
      g.pastGrid i a p s' = .ok (past, s') ∧ 0 ≤ past.toInt ∧ past.toInt < p.period.toInt ∧
      ((approach a).exec current statement).run s g = .ok ((), s') (g.setPos i a v) ∧
      (g.setPos i a v).pastGrid i a p s' = .ok (past', s') ∧
      Grid.distance past'.toInt p.period.toInt =
        Grid.distance past.toInt p.period.toInt - min p.step.toInt (Grid.distance past.toInt p.period.toInt)) ∧
    (0 < p.step.toInt → (∀ n, StepFits (((walked a current statement s)^[n] g).object i) a p first now) →
      (∀ n, ((approach a).exec current statement).run s ((walked a current statement s)^[n] g) =
        .ok ((), s') ((walked a current statement s)^[n + 1] g)) ∧
      ∃ N, ((walked a current statement s)^[N] g).pastGrid i a p s' = .ok (0, s') ∧
        ∀ n ≥ N, (walked a current statement s)^[n] g = (walked a current statement s)^[N] g) := by
  constructor
  · intro hfits
    obtain ⟨past, hpast, hmod⟩ := h.pastGrid_ok hfits.place
    obtain ⟨hexec, v, hwalked, -⟩ := h.exec_ok statement hfits
    have hplace := h.gridPlace_walked statement hfits
    have hdistance := h.distanceOf_walked statement hfits
    have hnext := h.again statement hfits
    rw [hwalked] at hexec hplace hdistance hnext
    obtain ⟨past', hpast', hmod'⟩ := hnext.pastGrid_ok (hplace ▸ hfits.nextPlace)
    refine ⟨past, past', v, hpast, ?_, ?_, hexec, hpast', ?_⟩
    · exact hmod ▸ h.past_mem.1
    · exact hmod ▸ h.past_mem.2
    · rw [hmod, hmod']
      exact hdistance
  · intro hstep hfits
    obtain ⟨N, hpoint⟩ := h.arrives statement hstep hfits
    have hwalks (n : Nat) := (h.iterate statement hfits n).1
    refine ⟨fun n => ?_, N, ?_, fun n hn => ?_⟩
    · rw [Function.iterate_succ_apply']
      exact ((hwalks n).exec_ok statement (hfits n)).1
    · obtain ⟨past, hpast, hmod⟩ := (hwalks N).pastGrid_ok (hfits N).place
      have hzero : past = 0 := Int16.toInt_inj.mp (by rw [hmod, hpoint, Int16.toInt_zero])
      rw [hpast, hzero]
    · obtain ⟨k, rfl⟩ := Nat.exists_eq_add_of_le' hn
      rw [Function.iterate_add_apply]
      exact Function.iterate_fixed ((hwalks N).walked_eq_self statement (hfits N) hpoint) k

open Game (birdGame)

/-- The bird goes to points seven columns apart, by two columns at once. -/
def birdSteps (offset : Nat) : Script := { data := Bytes.ofList [0, 0, 1, 0, 7, 0, 4, 0, 2, 0], offset }

theorem walks_birdGame :
    Walks birdGame 0 (birdSteps 0) (birdSteps 10) 0 .x ⟨1, 7, 4, 2⟩ ⟨1, 4, 2, 1, 3⟩ ⟨1, 4, 2, 1, 3⟩ where
  reads := rfl
  slot := Game.maxObjects_pos
  framed := ⟨rfl, rfl⟩
  period := by decide
  step := by decide

theorem wayFits_birdGame : WayFits (birdGame.object 0) .x ⟨1, 7, 4, 2⟩ ⟨1, 4, 2, 1, 3⟩ ⟨1, 4, 2, 1, 3⟩ := by
  constructor <;> decide

/-- It goes back or on as it is nearer, and comes to a point. -/
theorem approach_onto_grid_birdGame :
    (∃ past past' v : Int16, birdGame.pastGrid 0 .x ⟨1, 7, 4, 2⟩ (birdSteps 10) = .ok (past, birdSteps 10) ∧
      ((approach .x).exec 0 0).run (birdSteps 0) birdGame = .ok ((), birdSteps 10) (birdGame.setPos 0 .x v) ∧
      (birdGame.setPos 0 .x v).pastGrid 0 .x ⟨1, 7, 4, 2⟩ (birdSteps 10) = .ok (past', birdSteps 10) ∧
      Grid.distance past'.toInt 7 = Grid.distance past.toInt 7 - min 2 (Grid.distance past.toInt 7)) ∧
    ∃ N, ((walked .x 0 0 (birdSteps 0))^[N] birdGame).pastGrid 0 .x ⟨1, 7, 4, 2⟩ (birdSteps 10) =
      .ok (0, birdSteps 10) := by
  obtain ⟨hstep, hrun⟩ := approach_onto_grid walks_birdGame 0
  obtain ⟨past, past', v, hpast, -, -, hexec, hpast', hdistance⟩ := hstep (walks_birdGame.stepFits wayFits_birdGame)
  obtain ⟨-, N, hpoint, -⟩ := hrun (by decide) (walks_birdGame.stepFits_iterate 0 wayFits_birdGame)
  exact ⟨⟨past, past', v, hpast, hexec, hpast', hdistance⟩, N, hpoint⟩

end Operator

end Adventure
