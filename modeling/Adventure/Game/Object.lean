import Adventure.Game.Basic

/-! Starting objects and moving them on from frame to frame. -/

namespace Adventure

namespace SceneObject

/-- The object at the place it starts from, in its first frame. A flipped frame hangs on
its other side. -/
def placed (o : SceneObject) (frame : Int16) (h : FrameHeader) (state : Int16) : SceneObject :=
  let x := if o.flipInit = flipX then (o.xInit.toInt - (h.w.toInt - 1)).toInt16 else o.xInit
  let y := if o.flipInit = flipY then (o.yInit.toInt - (h.h.toInt - 1)).toInt16 else o.yInit
  let o := { o with
    x
    y
    z := o.zInit
    zPrev := o.zInit
    flip := o.flipInit
    flipPrev := o.flipInit
    motionNum1 := o.firstMotion.toInt16
    motionNum2 := o.firstMotion.toInt16
    frameNum := frame }
  let o := if o.state = 0 then { o with xPrev := x, yPrev := y, frameNumPrev := frame } else o
  { o with state, statePrev := state }

/-- What is drawn next has been drawn. -/
def drawn (o : SceneObject) : SceneObject :=
  { o with
    motionNum1 := o.motionNum2
    flipPrev := o.flip
    zPrev := o.z
    xPrev := o.x
    yPrev := o.y
    frameNumPrev := o.frameNum }

/-- The next frame of the motion, with its anchor where the last one had it. -/
def advanced (o : SceneObject) (frame : Int16) (last next : FrameHeader) : SceneObject :=
  let dx := last.xPos.toInt - next.xPos.toInt
  let dy := last.yPos.toInt - next.yPos.toInt
  let x := if o.flip = flipX then o.x.toInt + dx + last.w.toInt - next.w.toInt else o.x.toInt - dx
  { o with frameNum := frame, x := x.toInt16, y := (o.y.toInt - dy).toInt16 }

end SceneObject

namespace Game

def nextRandom : M UInt16 := modifyGet fun g =>
  let (n, random) := g.random.next
  (n, { g with random })

/-- The state in which an object starts; 0 if it does not start now. -/
def startState (o : SceneObject) : M Int16 := do
  match o.mode.toInt with
  | 1 => return 1
  | 2 =>
    let n ← nextRandom
    return if ((n.toNat : Int) * o.modeRandom.toInt).tdiv 0x8000 = 0 then 1 else 0
  | 3 => return 2
  | _ => return 0

/-- Starts an object that is not drawn, if its mode lets it. -/
def startObject (i : Nat) : M Unit := do
  let o := (← get).object i
  if o.isVisibleAt .next then return
  let state ← startState o
  if state = 0 then return
  let t := (← get).tables
  let frame ← ofExcept (t.firstFrame o)
  let h ← ofExcept (t.frameHeader frame)
  onObject i fun o => o.placed frame h state

/-- Notes that an object was drawn, and moves an animated one on. -/
def advanceObject (i : Nat) : M Unit := do
  onObject i fun o => { o with statePrev := o.state }
  if ((← get).object i).state = 1 then
    onObject i SceneObject.drawn
    let g ← get
    let o := g.object i
    let last ← ofExcept (g.tables.frameHeader o.frameNumPrev)
    let motion ← ofExcept (g.tables.motion o.motionNum2.toInt)
    let frame := (last.num.toInt + motion.firstFrame.toInt).toInt16
    let next ← ofExcept (g.tables.frameHeader frame)
    onObject i fun o => o.advanced frame last next

def advanceObjects : List Nat → M Unit
  | [] => pure ()
  | i :: r => do
    advanceObject i
    advanceObjects r

end Game

end Adventure
