import Adventure.Game.Basic
import Adventure.Script.Place

/-! The conditions of scripts. Finding out whether one holds changes nothing but the
place in the script. -/

namespace Adventure

inductive Condition where
  | always
  | chance
  | key (down : Bool)
  | click
  | isSelf
  | state (m : Moment)
  | meetsRect
  | spans (a : Axis) (m : Moment)
  | flip (m : Moment)
  | frame (m : Moment)
  | motion (m : Moment)
  | objectVar
  | overlap (a : Axis)
  | height
  | var
  | action
  | box (hit : Bool)
  | sight
  | selected
  | lifeBar (shown : Bool)
  | dialogueEnded
  | exit
  deriving DecidableEq, Repr

namespace Condition

def ofCode? (code : Int16) : Option Condition :=
  match code.toInt with
  | 10 => some .always
  | 100 => some .chance
  | 500 => some (.key true)
  | 510 => some (.key false)
  | 1100 => some .click
  | 2500 => some .isSelf
  | 3000 => some (.state .last)
  | 3010 => some (.state .next)
  | 3050 => some .meetsRect
  | 3100 => some (.spans .x .last)
  | 3105 => some (.spans .x .next)
  | 3110 => some (.spans .y .last)
  | 3150 => some (.spans .y .next)
  | 3300 => some (.flip .last)
  | 3310 => some (.flip .next)
  | 3400 => some (.frame .last)
  | 3410 => some (.frame .next)
  | 3500 => some (.motion .last)
  | 3510 => some (.motion .next)
  | 3600 => some .objectVar
  | 3700 => some (.overlap .x)
  | 3710 => some (.overlap .y)
  | 4110 => some .height
  | 6000 => some .var
  | 6500 => some .action
  | 7000 => some (.box true)
  | 7500 => some (.box false)
  | 8500 => some .sight
  | 10000 => some .selected
  | 20000 => some (.lifeBar true)
  | 20010 => some (.lifeBar false)
  | 25000 => some .dialogueEnded
  | 30000 => some .exit
  | _ => none

open Operand

/-- Runs a test on an object; none holds of an object that is missing. -/
def withObject (g : Game) (current : Nat) (test : SceneObject → Operand Bool) : Operand Bool := do
  match (← object g.tables).slot? current with
  | some i => test (g.object i)
  | none => return false

/-- Runs a test on an object that was drawn. -/
def withDrawn (g : Game) (current : Nat) (test : SceneObject → Operand Bool) : Operand Bool :=
  withObject g current fun o => if o.statePrev = 0 then return false else test o

/-- A random number, cut to a range, is zero. -/
def chanceHolds (roll : UInt16) : Operand Bool := do
  let range ← int
  return (range * (roll.toNat : Int)).tdiv 0x8000 = 0

def keyDown (g : Game) : Operand Bool := do
  return g.keys.get (← index .keys numKeys) ≠ 0

def clickHolds (g : Game) : Operand Bool := do
  match ← int with
  | 0 => return g.leftClick
  | 1 => return g.rightClick
  | 2 => return !g.leftClick
  | 3 => return !g.rightClick
  | _ => return true

/-- A number of an object is the given one. The operand of a missing object is skipped. -/
def equals (g : Game) (current : Nat) (value : SceneObject → Int16) : Operand Bool := do
  match (← object g.tables).slot? current with
  | some i => return (← word) = value (g.object i)
  | none =>
    skip 2
    return false

/-- The frame of an object has a point in common with a rectangle. -/
def meetsRectHolds (g : Game) (current : Nat) : Operand Bool := do
  let slot := (← object g.tables).slot? current
  let x₁ ← int
  let y₁ ← int
  let x₂ ← int
  let y₂ ← int
  match slot with
  | none => return false
  | some i =>
    let o := g.object i
    if o.state = 0 then return false
    let h ← g.tables.frameHeader o.frameNumPrev
    let x := o.xPrev.toInt
    let y := o.yPrev.toInt
    return x₁ ≤ x + h.w.toInt ∧ x ≤ x₂ ∧ y₁ ≤ y + h.h.toInt ∧ y ≤ y₂

/-- An object spans a coordinate; one that is not drawn counts as doing so. -/
def spansHolds (g : Game) (current : Nat) (a : Axis) (m : Moment) : Operand Bool := do
  match (← object g.tables).slot? current with
  | none =>
    skip 14
    return false
  | some i =>
    let o := g.object i
    if o.stateAt m = 0 then
      skip 14
      return true
    Operand.spans g.tables o a m

/-- The number of an object's frame in its motion. -/
def frameHolds (g : Game) (current : Nat) (m : Moment) : Operand Bool :=
  withDrawn g current fun o => do
    let first := (← g.tables.motion (o.motionAt m).toInt).firstFrame
    test ((o.frameAt m).toInt - first.toInt + 1).toInt16

/-- The number of an object's motion in its animation. -/
def motionHolds (g : Game) (current : Nat) (m : Moment) : Operand Bool := do
  let ref ← object g.tables
  match ref.slot? current with
  | none => return false
  | some i =>
    let o := g.object i
    if o.statePrev = 0 then return false
    let anim ← g.tables.animationOf o
    let a ← g.tables.animation anim
    let d := (o.motionAt m).toInt - a.firstMotion.toInt
    let extra ←
      if ref.named?.isSome then do
        let first ← g.tables.motion o.motionInit.toInt
        pure (if anim = first.anim then 0 else a.unused.toInt)
      else pure 0
    test (extra + d + 1).toInt16

def objectVarHolds (g : Game) (current : Nat) : Operand Bool := do
  let i ← int
  withObject g current fun o => do
    test (o.vars.get (← Table.objectVars.check numObjectVars i))

/-- Two stretches on an axis have a point in common. -/
def overlapHolds (g : Game) (current : Nat) (a : Axis) : Operand Bool :=
  withDrawn g current fun o => do
    let a₁ ← point g.tables o a
    let a₂ ← point g.tables o a
    withDrawn g current fun p => do
      let b₁ ← point g.tables p a
      let b₂ ← point g.tables p a
      return min a₁ a₂ ≤ max b₁ b₂ ∧ min b₁ b₂ ≤ max a₁ a₂

/-- How far an object is above where it started, on a grid. -/
def heightHolds (g : Game) (current : Nat) : Operand Bool := do
  match (← object g.tables).slot? current with
  | none =>
    skip 4
    return false
  | some i =>
    let o := g.object i
    let first ← g.tables.firstFrame o
    let last ← g.tables.frameHeader o.frameNumPrev
    let start ← g.tables.frameHeader first
    let v ← wrapped (o.yPrev.toInt - o.yInit.toInt - last.yPos.toInt + start.yPos.toInt) (← int)
    return v = (← word) ∧ o.state = 1

/-- The boxes of a group, and those that were kept from the scene before. -/
def boxes (g : Game) (group : Int16) : Except GameError (List SceneBox) := do
  let i ← Table.boxes.check boxesPerGroup group.toInt
  return g.tables.groupBoxes i ++ g.tables.groupBoxes (boxesPerGroup + i)

/-- An object touches a box of a group that is on. -/
def boxHolds (g : Game) (current : Nat) (hit : Bool) : Operand Bool := do
  let group ← word
  withDrawn g current fun o => do
    let (x₁, x₂, y₁, y₂) ← corners g.tables o
    let found := (← boxes g group).any fun b =>
      b.meetsRect x₁.toInt x₂.toInt y₁.toInt y₂.toInt ∧ b.state = 1
    return found = hit

/-- No box of a group stands between two points of objects. -/
def sightHolds (g : Game) (current : Nat) : Operand Bool := do
  let group ← word
  withDrawn g current fun o => do
    let x₁ ← point g.tables o .x
    let y₁ ← point g.tables o .y
    withDrawn g current fun p => do
      let x₂ ← point g.tables p .x
      let y₂ ← point g.tables p .y
      return !(← boxes g group).any fun b => b.blocks x₁.toInt y₁.toInt x₂.toInt y₂.toInt

def selectedHolds (g : Game) : Operand Bool := do
  let name ← string
  return match g.bag.find? name with
    | some i => g.bag.selected = Int16.ofNat i
    | none => false

/-- The condition holds for the object that runs the script. The roll is the random
number that comes next. -/
def holds (g : Game) (current : Nat) (roll : UInt16) : Condition → Operand Bool
  | .always => return true
  | .chance => chanceHolds roll
  | .key down => do return (← keyDown g) = down
  | .click => clickHolds g
  | .isSelf => do return (← object g.tables).slot? current = some current
  | .state m => equals g current fun o => o.stateAt m
  | .meetsRect => meetsRectHolds g current
  | .spans a m => spansHolds g current a m
  | .flip m => equals g current fun o => o.flipAt m
  | .frame m => frameHolds g current m
  | .motion m => motionHolds g current m
  | .objectVar => objectVarHolds g current
  | .overlap a => overlapHolds g current a
  | .height => heightHolds g current
  | .var => do test (g.vars.get (← index .vars numVars))
  | .action => do return (← word) = g.bag.action
  | .box hit => boxHolds g current hit
  | .sight => sightHolds g current
  | .selected => selectedHolds g
  | .lifeBar shown => return g.ui.lifeBarShown = shown
  | .dialogueEnded => do return (← test g.ending.number.toInt16) ∧ g.ending.fresh
  | .exit => do
    let n ← word
    return g.tables.nextScenes.any fun s => s.num = n

end Condition

end Adventure
