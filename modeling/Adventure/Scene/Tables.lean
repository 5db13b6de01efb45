import Adventure.Scene.Box
import Adventure.Resource.SpriteBank

/-! The tables of a scene. Objects, boxes and statuses keep their slots from scene to
scene; animations, motions and frames come and go with the movies that hold them. -/

namespace Adventure

def numVars : Nat := 310

def numBoxGroups : Nat := 20

def boxesPerGroup : Nat := 10

def maxFrames : Nat := 3000

def maxMotions : Nat := 300

def maxSounds : Nat := 80

def maxObjects : Nat := 50

def maxAnimations : Nat := 50

def maxBag : Nat := 20

def maxNextScenes : Nat := 20

def numStatuses : Nat := 200

def numObjectVars : Nat := 10

def numKeys : Nat := 128

/-- Changes what is in a slot; where there is no slot nothing happens. -/
def modifySlot {α : Type} {n : Nat} (v : Vector α n) (i : Nat) (f : α → α) : Vector α n :=
  ⟨v.toArray.modify i f, by simp⟩

/-- The variables of the game. -/
abbrev Vars := Vector Int16 numVars

/-- An object of a scene. It is inactive in state 0, animated in state 1, still in
state 2 and about to go in state -1. What was drawn last is kept beside what is
drawn next. -/
structure SceneObject where
  xInit : Int16 := 0
  yInit : Int16 := 0
  x : Int16 := 0
  y : Int16 := 0
  xPrev : Int16 := 0
  yPrev : Int16 := 0
  zInit : Int16 := 0
  zPrev : Int16 := 0
  z : Int16 := 0
  frameNum : Int16 := 0
  frameNumPrev : Int16 := 0
  flipInit : Int16 := 0
  flip : Int16 := 0
  flipPrev : Int16 := 0
  /-- The motion to start with, counted from `motionInit`. -/
  motionNum : Int16 := 0
  /-- The first motion of the animation that brought the object. -/
  motionInit : Int16 := 0
  /-- The motion that was drawn last. -/
  motionNum1 : Int16 := 0
  /-- The motion that is drawn next. -/
  motionNum2 : Int16 := 0
  motionFrameNum : Int16 := 0
  mode : Int16 := 0
  modeRandom : Int16 := 0
  statePrev : Int16 := 0
  state : Int16 := 0
  name : String := ""
  className : String := ""
  vars : Vector Int16 numObjectVars := Vector.replicate numObjectVars 0
  deriving DecidableEq, Repr, Inhabited

/-- The flip value that mirrors columns. -/
def flipX : Int16 := 2

/-- The flip value that mirrors rows. -/
def flipY : Int16 := 1

/-- A movie in the tables, and the parts of them that are its own. -/
structure Animation where
  name : String := ""
  firstMotion : Int16 := 0
  motionsCount : Int16 := 0
  firstObject : Int16 := 0
  objectsCount : Int16 := 0
  firstSound : Int16 := 0
  soundsCount : Int16 := 0
  script : ByteArray := ByteArray.empty
  unused : Int16 := 0
  deriving DecidableEq, Inhabited

/-- A run of frames of one animation. -/
structure Motion where
  firstFrame : Int16 := 0
  count : Int16 := 0
  anim : Int16 := 0
  deriving DecidableEq, Repr, Inhabited

/-- Something in the bag, with the sprite that shows it. -/
structure BagEntry where
  name : String
  data : ByteArray
  deriving DecidableEq, Inhabited

/-- A scene that can follow this one. -/
structure NextScene where
  num : Int16
  name : String
  deriving DecidableEq, Repr, Inhabited

/-- How an object looked when a script noted it down. -/
structure ObjectStatus where
  x : Int16 := 0
  y : Int16 := 0
  z : Int16 := 0
  motionNum : Int16 := 0
  frameNum : Int16 := 0
  flip : Int16 := 0
  deriving DecidableEq, Repr, Inhabited

abbrev BoxGroup := Vector SceneBox boxesPerGroup

abbrev BoxTable := Vector BoxGroup numBoxGroups

end Adventure
