import Adventure.Script.Operand

/-! Places in a scene: points of an object's frame, positions relative to where an object
started, and the step from one frame to another. -/

namespace Adventure

namespace Operand

/-- The coordinate of a point in the frame of an object that was drawn last. The point is
given as a fraction of the frame's size plus a number; a flipped frame counts from its
other side. -/
def point (t : SceneTables) (o : SceneObject) (a : Axis) : Operand Int16 := do
  let size := a.size (← t.frameHeader o.frameNumPrev)
  let d ← scaled size
  let d := if o.flipPrev = a.flip then (size - d.toInt - 1).toInt16 else d
  return ((o.posAt a .last).toInt + d.toInt).toInt16

/-- Two points for each axis, as first and second column and first and second row. -/
def corners (t : SceneTables) (o : SceneObject) : Operand (Int16 × Int16 × Int16 × Int16) := do
  let x₁ ← point t o .x
  let x₂ ← point t o .x
  let y₁ ← point t o .y
  let y₂ ← point t o .y
  return (x₁, x₂, y₁, y₂)

/-- A coordinate lies in a part of an object's frame. -/
def spans (t : SceneTables) (o : SceneObject) (a : Axis) (m : Moment) : Operand Bool := do
  let size := a.size (← t.frameHeader (o.frameAt m))
  let low ← scaled size
  let high ← scaled size
  let v ← int
  let flipped (d : Int16) : Int16 := if o.flipAt m = a.flip then (size - d.toInt).toInt16 else d
  let (low, high) := (flipped low, flipped high)
  let (low, high) := if high < low then (high, low) else (low, high)
  let pos := (o.posAt a m).toInt
  return o.stateAt m ≠ 0 ∧ pos + low.toInt ≤ v ∧ v ≤ pos + high.toInt

/-- The number from `low` on that leaves the same remainder by `step` as a value. -/
def snap (value low step : Int16) : Operand Int16 := do
  let base := (← div (low.toInt - step.toInt + 1) step.toInt) * step.toInt
  let v := (base + (← rem value.toInt step.toInt)).toInt16
  return if v.toInt < low.toInt then (v.toInt + step.toInt).toInt16 else v

/-- A remainder that is not negative. -/
def wrapped (v period : Int) : Operand Int16 := do
  let r := (← rem v period).toInt16
  return if r < 0 then (r.toInt + period).toInt16 else r

/-- How far an object is past the last point of a grid. The grid starts where the object
started, and frames count by their anchors. -/
def pastGrid (t : SceneTables) (o : SceneObject) (a : Axis) (shift period start : Int) : Operand Int16 := do
  let first ← t.frameHeader (← t.firstFrame o)
  let now ← t.frameHeader o.frameNum
  let moved :=
    if o.flip = a.flip then
      (a.anchor first - a.anchor now + a.size first - a.size now + shift).toInt16
    else (a.anchor now - a.anchor first).toInt16
  let turned : Int16 := if o.flipInit = a.flip then (1 - a.size first - shift).toInt16 else 0
  let v := ((o.posAt a .next).toInt - (o.initPos a).toInt - turned.toInt - moved.toInt - start).toInt16
  wrapped v.toInt period

end Operand

namespace SceneTables

/-- The first motion of the animation that an object takes its motions from: that of
another object, or of its own. -/
def motionBase (t : SceneTables) (o : SceneObject) (other : Option Nat) : Except GameError Int :=
  match other with
  | some i => .ok (t.object i).motionInit.toInt
  | none => do return (← t.animation (← t.animationOf o)).firstMotion.toInt

/-- An object in another frame. Its anchor stays, or lies where `dx` and `dy` say. -/
def inFrame (o : SceneObject) (motion frame : Int16) (last next : FrameHeader) (dx dy : Option Int) :
    SceneObject :=
  let x :=
    if o.flipPrev = flipX then
      o.xPrev.toInt + last.xPos.toInt - dx.getD next.xPos.toInt + last.w.toInt - next.w.toInt
    else o.xPrev.toInt - last.xPos.toInt + dx.getD next.xPos.toInt
  let y := o.yPrev.toInt - last.yPos.toInt + dy.getD next.yPos.toInt
  { o with motionNum2 := motion, frameNum := frame, x := x.toInt16, y := y.toInt16 }

/-- Puts an object that was drawn into a frame of a motion, both counted from one. -/
def changeFrame (t : SceneTables) (o : SceneObject) (other : Option Nat) (motion frame : Int)
    (dx dy : Option Int) : Except GameError SceneObject := do
  if o.statePrev = 0 then return o
  let motionNum := ((← t.motionBase o other) + motion - 1).toInt16
  let frameNum := ((← t.motion motionNum.toInt).firstFrame.toInt + frame - 1).toInt16
  let last ← t.frameHeader o.frameNumPrev
  let next ← t.frameHeader frameNum
  return inFrame o motionNum frameNum last next dx dy

end SceneTables

/-- Where the rows of a new frame come from: its anchor, a grid, or a given number. -/
inductive Rows where
  | anchor | grid | given
  deriving DecidableEq, Repr

namespace Operand

/-- The first place and the step of a grid across a size. -/
def gridOf (size : Int) : Operand (Int16 × Int16) := do
  let (low, high) ← scaledPair size
  return (low, (high.toInt - low.toInt).toInt16)

/-- The grid of the rows, where there is one. -/
def rowGrid (rows : Rows) (size : Int) : Operand (Int16 × Int16) :=
  if rows = .grid then gridOf size else pure (0, 0)

/-- The number of a frame in its motion; the first one where none is given. -/
def frameNumber (withFrame : Bool) : Operand Int := if withFrame then int else pure 1

/-- How far the rows move: with the anchor, to the grid, or to the given place. -/
def rowShift (rows : Rows) (last next : FrameHeader) (low step : Int16) : Operand Int16 :=
  let dy := (next.yPos.toInt - last.yPos.toInt).toInt16
  match rows with
  | .anchor => pure dy
  | .grid => snap dy low step
  | .given => do
    discard word
    return ((← int) - last.yPos.toInt).toInt16

/-- Puts an object into a frame of another motion so that its columns meet a grid. An
object that was not drawn stays as it is, and its operands are left. -/
def gridFrame (t : SceneTables) (o : SceneObject) (other : Option Nat) (withFrame : Bool) (rows : Rows) :
    Operand (Option SceneObject) := do
  let last ← t.frameHeader o.frameNumPrev
  if o.statePrev = 0 then return none
  let (left, stepX) ← gridOf last.w.toInt
  let (low, stepY) ← rowGrid rows last.h.toInt
  let base ← t.motionBase o other
  let motionNum := (base + (← int) - 1).toInt16
  let first := (← t.motion motionNum.toInt).firstFrame.toInt
  let frameNum := (first + (← frameNumber withFrame) - 1).toInt16
  let next ← t.frameHeader frameNum
  let dx ← snap (next.xPos.toInt - last.xPos.toInt).toInt16 left stepX
  let dy ← rowShift rows last next low stepY
  let x :=
    if o.flipPrev = flipX then o.xPrev.toInt - dx.toInt + last.w.toInt - next.w.toInt
    else o.xPrev.toInt + dx.toInt
  return some { o with
    motionNum2 := motionNum
    frameNum
    x := x.toInt16
    y := (o.yPrev.toInt + dy.toInt).toInt16 }

end Operand

end Adventure
