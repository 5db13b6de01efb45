import Adventure.Game.Object
import Adventure.Game.Sound
import Adventure.Picture.Block
import Adventure.Script.Place

/-! The operators of scripts. -/

namespace Adventure

/-- Where a new frame goes: its anchor stays, or the column or both are given. -/
inductive Anchor where
  | keep | column | both
  deriving DecidableEq, Repr

inductive Operator where
  | state
  | move (a : Axis)
  | coordinate (c : Coordinate)
  | flip (initial : Bool)
  | frame (withFrame : Bool) (anchor : Anchor)
  | gridFrame (withFrame : Bool) (rows : Rows)
  | objectVar
  | approach (a : Axis)
  | mode
  | initPlace
  | initPoint
  | initMotion (withFrame : Bool)
  | var
  | varFromScene
  | box (on : Bool)
  | shiftBoxes (a : Axis)
  | boxAround
  | clipBoxes
  | status
  | take
  | drop
  | sound (strict : Bool)
  | dialogue
  | exit (keepBoxes : Bool)
  deriving DecidableEq, Repr

/-- A step of a script, which reads its operands and acts on the game. -/
abbrev Interpreter := StateT Script Game.M

namespace Interpreter

def read {α : Type} (m : Operand α) : Interpreter α := fun s =>
  match m s with
  | .ok r => pure r
  | .error e => throw e

def game : Interpreter Game := liftM (get : Game.M Game)

def onGame (f : Game → Game) : Interpreter Unit := liftM (modify f : Game.M Unit)

def onObject (i : Nat) (f : SceneObject → SceneObject) : Interpreter Unit := liftM (Game.onObject i f)

def onTables (f : SceneTables → SceneTables) : Interpreter Unit := liftM (Game.onTables f)

end Interpreter

namespace Operator

def ofCode? (code : Int16) : Option Operator :=
  match code.toInt with
  | 3000 => some .state
  | 3100 => some (.move .x)
  | 3110 => some (.move .y)
  | 3120 => some (.coordinate .x)
  | 3130 => some (.coordinate .y)
  | 3200 => some (.coordinate .z)
  | 3300 => some (.flip false)
  | 3400 => some (.frame true .keep)
  | 3410 => some (.frame true .column)
  | 3430 => some (.frame true .both)
  | 3440 => some (.gridFrame true .anchor)
  | 3460 => some (.gridFrame true .grid)
  | 3480 => some (.gridFrame true .given)
  | 3500 => some (.frame false .keep)
  | 3530 => some (.frame false .both)
  | 3540 => some (.gridFrame false .anchor)
  | 3560 => some (.gridFrame false .grid)
  | 3580 => some (.gridFrame false .given)
  | 4000 => some .objectVar
  | 4100 => some (.approach .x)
  | 4200 => some (.approach .y)
  | 5000 => some .mode
  | 5100 => some .initPlace
  | 5110 => some .initPoint
  | 5112 => some (.coordinate .xInit)
  | 5114 => some (.coordinate .yInit)
  | 5200 => some (.coordinate .zInit)
  | 5300 => some (.flip true)
  | 5400 => some (.initMotion true)
  | 5500 => some (.initMotion false)
  | 6000 => some .var
  | 6100 => some .varFromScene
  | 7000 => some (.box false)
  | 7010 => some (.box true)
  | 7100 => some (.shiftBoxes .x)
  | 7110 => some (.shiftBoxes .y)
  | 7200 => some .boxAround
  | 7300 => some .clipBoxes
  | 8000 => some .status
  | 10000 => some .take
  | 11000 => some .drop
  | 20000 => some (.sound true)
  | 20010 => some (.sound false)
  | 25000 => some .dialogue
  | 30000 => some (.exit false)
  | 30010 => some (.exit true)
  | _ => none

open Interpreter
open Operand (word int skip)

/-- Reads an object and runs a step on its slot. Without the object the other operands,
of the given size, are skipped. -/
def withSlot (current size : Nat) (step : ObjectRef → Nat → Interpreter Unit) : Interpreter Unit := do
  let ref ← read (Operand.object (← game).tables)
  match ref.slot? current with
  | some i => step ref i
  | none => read (skip size)

/-- Starts an object as if it had the given mode. -/
def startAs (i : Nat) (mode : Int16) : Interpreter Unit := do
  let kept := ((← game).object i).mode
  onObject i fun o => { o with mode }
  liftM (Game.startObject i)
  onObject i fun o => { o with mode := kept }

/-- Wipes a still object from the frame. -/
def wipe (i : Nat) : Interpreter Unit := do
  let g ← game
  let o := g.object i
  let h ← ofExcept (g.tables.frameHeader o.frameNum)
  liftM <| Game.onFrame fun f =>
    Block.copy o.x.toInt (f.h + 1 - o.y.toInt - h.h.toInt) h.w.toInt h.h.toInt g.background f

/-- Takes an object from the scene, goes back to what was drawn. -/
def vanish (i : Nat) : Interpreter Unit := do
  if ((← game).object i).state ≠ 0 then
    onObject i SceneObject.stepBack
    if ((← game).object i).state = 2 then wipe i
    onObject i fun o => { o with state := -1 }

/-- Animates an object. -/
def animate (i : Nat) : Interpreter Unit := do
  startAs i 1
  onObject i fun o => if o.state = 2 then { o with state := 1 } else o

/-- Makes an object stand still. -/
def freeze (i : Nat) : Interpreter Unit := do
  if ((← game).object i).state = 1 then onObject i fun o => { o.stepBack with state := 2 }
  else startAs i 3

def execState (current : Nat) : Interpreter Unit :=
  withSlot current 2 fun _ i => do
    match ← read int with
    | 0 => vanish i
    | 1 => animate i
    | 2 => freeze i
    | _ => pure ()

/-- Changes a coordinate of the object that runs the script, if it is there. -/
def execMove (current : Nat) (a : Axis) : Interpreter Unit := do
  let o := (← game).object current
  if o.state = 0 then read (skip 10)
  else
    read (skip 6)
    let v ← read (Operand.change (o.posAt a .next))
    onObject current fun o => o.setPos a v

def execCoordinate (current : Nat) (c : Coordinate) : Interpreter Unit :=
  withSlot current 4 fun _ i => do
    let v ← read (Operand.change (((← game).object i).coordinate c))
    onObject i fun o => o.setCoordinate c v

def execFlip (current : Nat) (initial : Bool) : Interpreter Unit :=
  withSlot current 2 fun _ i => do
    let flip ← read word
    onObject i fun o => if initial then { o with flipInit := flip } else { o with flip }

/-- The operands of a frame change: the motion, the frame, and the given places. A
column alone is followed by a number that is not used. -/
def frameOperands (withFrame : Bool) (anchor : Anchor) : Operand (Int × Int × Option Int × Option Int) := do
  let motion ← int
  let frame ← Operand.frameNumber withFrame
  match anchor with
  | .keep => return (motion, frame, none, none)
  | .column =>
    let x ← int
    discard word
    return (motion, frame, some x, none)
  | .both =>
    let x ← int
    let y ← int
    return (motion, frame, some x, some y)

/-- The size of the operands of a frame change. -/
def frameOperandsSize (withFrame : Bool) (anchor : Anchor) : Nat :=
  (if withFrame then 4 else 2) + (if anchor = .keep then 0 else 4)

/-- Changes the frame of the object that runs the script. The object in the operand
says whose motions are meant. -/
def execFrame (current : Nat) (withFrame : Bool) (anchor : Anchor) : Interpreter Unit :=
  withSlot current (frameOperandsSize withFrame anchor) fun ref _ => do
    let (motion, number, dx, dy) ← read (frameOperands withFrame anchor)
    let g ← game
    let o ← ofExcept (g.tables.changeFrame (g.object current) ref.named? motion number dx dy)
    onObject current fun _ => o

/-- The size of the operands of a frame change on a grid. -/
def gridOperandsSize (withFrame : Bool) (rows : Rows) : Nat :=
  12 + (if withFrame then 4 else 2) +
    match rows with
    | .anchor => 0
    | .grid => 12
    | .given => 4

def execGridFrame (current : Nat) (withFrame : Bool) (rows : Rows) : Interpreter Unit :=
  withSlot current (gridOperandsSize withFrame rows) fun ref _ => do
    let g ← game
    match ← read (Operand.gridFrame g.tables (g.object current) ref.named? withFrame rows) with
    | some o => onObject current fun _ => o
    | none => read (skip (gridOperandsSize withFrame rows))

def execObjectVar (current : Nat) : Interpreter Unit := do
  let n ← read int
  withSlot current 4 fun _ i => do
    let n ← ofExcept (Table.objectVars.check numObjectVars n)
    let v ← read (Operand.change (((← game).object i).vars.get n))
    onObject i fun o => { o with vars := o.vars.set n v }

/-- Moves an object towards the nearer point of its grid, by a step at most. -/
def execApproach (current : Nat) (a : Axis) : Interpreter Unit :=
  withSlot current 8 fun _ i => do
    let shift ← read int
    let period ← read word
    let start ← read int
    let step ← read word
    let g ← game
    let o := g.object i
    let past ← read (Operand.pastGrid g.tables o a shift period.toInt start)
    let pos := o.posAt a .next
    onObject i fun o =>
      o.setPos a (if past ≤ period / 2 then pos - min step past else pos + min step (period - past))

/-- Sets the mode of the object in a slot, if there is one. -/
def setMode (slot : Option Nat) (mode random : Int16) : Interpreter Unit :=
  match slot with
  | some i => onObject i fun o =>
    if mode = 2 then { o with mode, modeRandom := random } else { o with mode }
  | none => pure ()

def execMode (current : Nat) : Interpreter Unit := do
  let slot := (← read (Operand.object (← game).tables)).slot? current
  let mode ← read word
  let random ← if mode = 2 then read word else pure 0
  setMode slot mode random

def execInitPlace (current : Nat) : Interpreter Unit :=
  withSlot current 4 fun _ i => do
    let x ← read word
    onObject i fun o => { o with xInit := x }
    let y ← read word
    onObject i fun o => { o with yInit := y }

/-- An object is to start at a point of the object that runs the script. -/
def execInitPoint (current : Nat) : Interpreter Unit :=
  withSlot current 12 fun _ i => do
    let g ← game
    let o := g.object current
    let x ← read (Operand.point g.tables o .x)
    let y ← read (Operand.point g.tables o .y)
    onObject i fun o => { o with xInit := x, yInit := y }

def execInitMotion (current : Nat) (withFrame : Bool) : Interpreter Unit :=
  withSlot current (if withFrame then 4 else 2) fun _ i => do
    let motion ← read word
    onObject i fun o => { o with motionNum := motion - 1 }
    let frame ← if withFrame then read word else pure 1
    onObject i fun o => { o with motionFrameNum := frame - 1 }

def execVar : Interpreter Unit := do
  let i ← read (Operand.index .vars numVars)
  let v ← read (Operand.change ((← game).vars.get i))
  liftM (Game.setVar i v)

def execVarFromScene : Interpreter Unit := do
  let i ← read (Operand.index .vars numVars)
  liftM (Game.setVar i (← game).sceneNumber)

/-- A slot for a box. -/
def boxSlot (group index : Int) : Except GameError (Fin numBoxGroups × Fin boxesPerGroup) := do
  return (← Table.boxes.check numBoxGroups group, ← Table.boxes.check boxesPerGroup index)

/-- The statements of the first object that switch off a box which their scenes still need. -/
def keepsBox (current statement : Nat) : Bool := current = 0 ∧ (statement = 38 ∨ statement = 39)

def execBox (current statement : Nat) (on : Bool) : Interpreter Unit := do
  let group ← read int
  let index ← read int
  if !on && keepsBox current statement then return
  let (g, i) ← ofExcept (boxSlot group index)
  onTables (SceneTables.modifyBox g i fun b => { b with state := if on then 1 else 0 })

/-- Changes both ends of a box on an axis. The operands are read from one place twice. -/
def shiftBox (a : Axis) (start group index : Nat) : Interpreter Unit := do
  let b := ((← game).tables.findBox? group index).getD {}
  let (low, high) := match a with
    | .x => (b.x₁, b.x₂)
    | .y => (b.y₁, b.y₂)
  read (Operand.jump start)
  let low ← read (Operand.change low)
  read (Operand.jump start)
  let high ← read (Operand.change high)
  onTables <| SceneTables.modifyBox group index fun b =>
    match a with
    | .x => { b with x₁ := low, x₂ := high }
    | .y => { b with y₁ := low, y₂ := high }

def shiftAll (a : Axis) (start : Nat) : List (Nat × Nat) → Interpreter Unit
  | [] => pure ()
  | (group, index) :: r => do
    shiftBox a start group index
    shiftAll a start r

/-- The slots of the scene's own boxes that are in use. -/
def ownSlots (t : SceneTables) : List (Nat × Nat) :=
  SceneTables.ownGroups.flatMap fun g => (List.range (t.boxCount g)).map fun i => (g, i)

def execShiftBoxes (a : Axis) : Interpreter Unit := do
  let start ← read Operand.offset
  shiftAll a start (ownSlots (← game).tables)
  read (Operand.jump (start + 4))

/-- Puts a box around a part of an object that was drawn. -/
def execBoxAround (current : Nat) : Interpreter Unit := do
  let group ← read int
  let index ← read int
  withSlot current 24 fun _ i => do
    let g ← game
    let o := g.object i
    if o.statePrev = 0 then read (skip 24)
    else
      let (x₁, x₂, y₁, y₂) ← read (Operand.corners g.tables o)
      let (g, i) ← ofExcept (boxSlot group index)
      onTables <| SceneTables.modifyBox g i fun b =>
        { b with x₁ := min x₁ x₂, x₂ := max x₁ x₂, y₁ := min y₁ y₂, y₂ := max y₁ y₂ }

/-- Moves the scene's own boxes into a rectangle. -/
def execClipBoxes : Interpreter Unit := do
  let x₁ ← read word
  let y₁ ← read word
  let x₂ ← read word
  let y₂ ← read word
  let clip (v low high : Int16) : Int16 := min (max v low) high
  onTables fun t => (ownSlots t).foldl (fun t s => t.modifyBox s.1 s.2 fun b =>
    { b with x₁ := clip b.x₁ x₁ x₂, x₂ := clip b.x₂ x₁ x₂, y₁ := clip b.y₁ y₁ y₂, y₂ := clip b.y₂ y₁ y₂ }) t

/-- How the object that runs the script looked when it was drawn. -/
def statusOf (t : SceneTables) (o : SceneObject) : Except GameError ObjectStatus := do
  let h ← t.frameHeader o.frameNumPrev
  let motion ← t.motion o.motionNum1.toInt
  let first := (← t.animation motion.anim).firstMotion
  return {
    x := if o.flipPrev = flipX then (o.xPrev.toInt + h.w.toInt - 1).toInt16 else o.xPrev
    y := o.yPrev
    z := o.zPrev
    motionNum := (o.motionNum1.toInt - first.toInt).toInt16
    frameNum := (o.frameNumPrev.toInt - motion.firstFrame.toInt).toInt16
    flip := o.flipPrev }

def execStatus (current : Nat) : Interpreter Unit := do
  let g ← game
  let s ← ofExcept (statusOf g.tables (g.object current))
  let i ← read (Operand.index .statuses numStatuses)
  onTables fun t => { t with statuses := t.statuses.set i s }

/-- Puts an object that is not in the bag yet into it, as it was drawn. -/
def takeObject (i : Nat) : Interpreter Unit := do
  let g ← game
  let o := g.object i
  if (g.bag.find? o.name).isNone then
    if maxBag ≤ g.bag.entries.length then throw (.full .bag)
    let frame ← ofExcept (g.tables.frame o.frameNumPrev)
    let data ← ofExcept (GameError.wrap .codec frame.decode)
    liftM <| Game.onBag fun b => { b with
      entries := b.entries ++ [⟨o.name, data⟩]
      selected := if b.selected = -1 then 0 else b.selected }

def execTake (current : Nat) : Interpreter Unit := withSlot current 0 fun _ i => takeObject i

/-- The bag without one of its entries. The entry that was selected stays so, if it can. -/
def dropEntry (b : Bag) (i : Nat) : Bag :=
  let n := Int16.ofNat i
  { b with
    entries := b.entries.eraseIdx i
    selected := if b.selected = n then 0 else if n < b.selected then b.selected - 1 else b.selected }

def execDrop : Interpreter Unit := do
  let name ← read Operand.string
  liftM <| Game.onBag fun b =>
    match b.find? name with
    | some i => dropEntry b i
    | none => b

/-- Plays a sound of the animation. One that is more important than the last waits until
that one is over. -/
def execSound (current : Nat) (strict : Bool) : Interpreter Unit := do
  let n ← read int
  let priority ← read word
  let g ← game
  let above : Bool := if strict then priority > g.sound.priority else priority ≥ g.sound.priority
  if above && !g.soundOver then return
  let t := g.tables
  let anim ← ofExcept (do t.animation (← t.animationOf (g.object current)))
  let i ← ofExcept (Table.sounds.check t.sounds.size (n + anim.firstSound.toInt - 1))
  liftM (Game.startSound t.sounds[i])
  onGame fun g => { g with sound := { g.sound with priority } }

def onRequest (f : DialogueRequest → DialogueRequest) : Interpreter Unit :=
  onGame fun g => { g with dialogueRequest := f g.dialogueRequest }

def execDialogue : Interpreter Unit := do
  let id ← read Operand.string
  onRequest fun r => { r with id }
  let file ← read Operand.string
  onRequest fun r => { r with file }
  let jack ← read Operand.string
  onRequest fun r => { r with jack }
  let other ← read Operand.string
  onRequest fun r => { r with other }
  onGame fun g => { g with talking := true }

/-- Keeps the boxes of a scene for the one behind it, or drops what was kept. -/
def keepBoxes (keep : Bool) (t : SceneTables) (group : Nat) : SceneTables :=
  let kept := boxesPerGroup + group
  if keep then
    SceneTables.setBoxCount kept (t.boxCount group)
      { t with boxes := modifySlot t.boxes kept fun old => t.boxes[group]?.getD old }
  else SceneTables.setBoxCount kept 0 t

/-- Asks for a scene that can follow. -/
def execExit (keep : Bool) : Interpreter Unit := do
  let n ← read word
  match (← game).tables.nextScenes.find? fun s => s.num = n with
  | none => pure ()
  | some s =>
    onGame fun g => { g with requested := some s }
    onTables fun t => SceneTables.ownGroups.foldl (keepBoxes keep) t

/-- Executes an operator for an object in a statement of its script. -/
def exec (current statement : Nat) : Operator → Interpreter Unit
  | .state => execState current
  | .move a => execMove current a
  | .coordinate c => execCoordinate current c
  | .flip initial => execFlip current initial
  | .frame withFrame anchor => execFrame current withFrame anchor
  | .gridFrame withFrame rows => execGridFrame current withFrame rows
  | .objectVar => execObjectVar current
  | .approach a => execApproach current a
  | .mode => execMode current
  | .initPlace => execInitPlace current
  | .initPoint => execInitPoint current
  | .initMotion withFrame => execInitMotion current withFrame
  | .var => execVar
  | .varFromScene => execVarFromScene
  | .box on => execBox current statement on
  | .shiftBoxes a => execShiftBoxes a
  | .boxAround => execBoxAround current
  | .clipBoxes => execClipBoxes
  | .status => execStatus current
  | .take => execTake current
  | .drop => execDrop
  | .sound strict => execSound current strict
  | .dialogue => execDialogue
  | .exit keep => execExit keep

end Operator

end Adventure
