import Adventure.Scene.Tables

/-! How an object stands: at which place, in which frame, and which way round. Each is
known for what was drawn last and for what is drawn next. -/

namespace Adventure

inductive Axis where
  | x | y
  deriving DecidableEq, Repr

namespace Axis

/-- The flip value that mirrors along the axis. -/
def flip : Axis → Int16
  | x => flipX
  | y => flipY

def size (a : Axis) (h : FrameHeader) : Int :=
  match a with
  | x => h.w.toInt
  | y => h.h.toInt

/-- Where the anchor of a frame lies. -/
def anchor (a : Axis) (h : FrameHeader) : Int :=
  match a with
  | x => h.xPos.toInt
  | y => h.yPos.toInt

end Axis

/-- What was drawn last, or what is drawn next. -/
inductive Moment where
  | last | next
  deriving DecidableEq, Repr

/-- The numbers of an object that say where it is. -/
inductive Coordinate where
  | x | y | z | xInit | yInit | zInit
  deriving DecidableEq, Repr

namespace SceneObject

def stateAt (o : SceneObject) : Moment → Int16
  | .last => o.statePrev
  | .next => o.state

def flipAt (o : SceneObject) : Moment → Int16
  | .last => o.flipPrev
  | .next => o.flip

def frameAt (o : SceneObject) : Moment → Int16
  | .last => o.frameNumPrev
  | .next => o.frameNum

def motionAt (o : SceneObject) : Moment → Int16
  | .last => o.motionNum1
  | .next => o.motionNum2

def posAt (o : SceneObject) : Axis → Moment → Int16
  | .x, .last => o.xPrev
  | .x, .next => o.x
  | .y, .last => o.yPrev
  | .y, .next => o.y

def initPos (o : SceneObject) : Axis → Int16
  | .x => o.xInit
  | .y => o.yInit

def setPos (o : SceneObject) (a : Axis) (v : Int16) : SceneObject :=
  match a with
  | .x => { o with x := v }
  | .y => { o with y := v }

def coordinate (o : SceneObject) : Coordinate → Int16
  | .x => o.x
  | .y => o.y
  | .z => o.z
  | .xInit => o.xInit
  | .yInit => o.yInit
  | .zInit => o.zInit

def setCoordinate (o : SceneObject) (c : Coordinate) (v : Int16) : SceneObject :=
  match c with
  | .x => { o with x := v }
  | .y => { o with y := v }
  | .z => { o with z := v }
  | .xInit => { o with xInit := v }
  | .yInit => { o with yInit := v }
  | .zInit => { o with zInit := v }

/-- The object is drawn. -/
def isVisibleAt (o : SceneObject) (m : Moment) : Bool := o.stateAt m = 1 ∨ o.stateAt m = 2

/-- The motion that the object starts with. -/
def firstMotion (o : SceneObject) : Int := o.motionNum.toInt + o.motionInit.toInt

/-- Goes back to what was drawn last. -/
def stepBack (o : SceneObject) : SceneObject := { o with x := o.xPrev, y := o.yPrev, frameNum := o.frameNumPrev }

end SceneObject

end Adventure
