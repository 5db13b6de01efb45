import Adventure.Game.Error
import Adventure.Scene.Pose

/-! The tables of a running scene: looking into them, filling them from a movie, and
dropping what belongs to movies that are no longer wanted. -/

namespace Adventure

/-- What has been loaded of a scene. -/
inductive Loaded where
  | nothing | background | movies
  deriving DecidableEq, Repr, Inhabited

/-- The first `objectsCount` slots of the objects are in use, and the first
`boxCounts[g]` slots of a group of boxes. -/
structure SceneTables where
  objects : Vector SceneObject maxObjects := Vector.replicate maxObjects {}
  objectsCount : Nat := 0
  animations : Array Animation := #[]
  motions : Array Motion := #[]
  frames : Array SpriteFrame := #[]
  sounds : Array String := #[]
  boxes : BoxTable := Vector.replicate numBoxGroups (Vector.replicate boxesPerGroup {})
  boxCounts : Vector Nat numBoxGroups := Vector.replicate numBoxGroups 0
  nextScenes : List NextScene := []
  statuses : Vector ObjectStatus numStatuses := Vector.replicate numStatuses {}
  loaded : Loaded := .nothing

namespace SceneTables

abbrev M := EStateM GameError SceneTables

/-- The objects that are in use. -/
def activeObjects (t : SceneTables) : List SceneObject := t.objects.toList.take t.objectsCount

/-- The object in a slot; an empty one where there is no slot. -/
def object (t : SceneTables) (i : Nat) : SceneObject := t.objects[i]?.getD {}

def modifyObject (i : Nat) (f : SceneObject → SceneObject) (t : SceneTables) : SceneTables :=
  { t with objects := modifySlot t.objects i f }

def frame (t : SceneTables) (i : Int16) : Except GameError SpriteFrame := do
  return t.frames[← Table.frames.check t.frames.size i.toInt]

def frameHeader (t : SceneTables) (i : Int16) : Except GameError FrameHeader := do
  return (← t.frame i).header

def motion (t : SceneTables) (i : Int) : Except GameError Motion := do
  return t.motions[← Table.motions.check t.motions.size i]

def animation (t : SceneTables) (i : Int16) : Except GameError Animation := do
  return t.animations[← Table.animations.check t.animations.size i.toInt]

/-- The animation that the motion drawn last belongs to. -/
def animationOf (t : SceneTables) (o : SceneObject) : Except GameError Int16 := do
  return (← t.motion o.motionNum1.toInt).anim

/-- The frame that an object starts with. -/
def firstFrame (t : SceneTables) (o : SceneObject) : Except GameError Int16 := do
  return ((← t.motion o.firstMotion).firstFrame.toInt + o.motionFrameNum.toInt).toInt16

/-- The slot of the object of a name. -/
def findObject? (t : SceneTables) (name : String) : Option Nat :=
  t.activeObjects.findIdx? fun o => o.name = name

def findBox? (t : SceneTables) (group index : Nat) : Option SceneBox := do
  let g ← t.boxes[group]?
  g[index]?

def boxCount (t : SceneTables) (group : Nat) : Nat := t.boxCounts[group]?.getD 0

/-- The boxes of a group that are in use. -/
def groupBoxes (t : SceneTables) (group : Nat) : List SceneBox :=
  match t.boxes[group]? with
  | some g => g.toList.take (t.boxCount group)
  | none => []

def modifyBox (group index : Nat) (f : SceneBox → SceneBox) (t : SceneTables) : SceneTables :=
  { t with boxes := modifySlot t.boxes group fun g => modifySlot g index f }

def setBoxCount (group n : Nat) (t : SceneTables) : SceneTables :=
  { t with boxCounts := t.boxCounts.setIfInBounds group n }

/-- The groups of a scene's own boxes; as many groups behind them hold boxes that were
kept from the scene before. -/
def ownGroups : List Nat := List.range boxesPerGroup

/-- Takes all boxes of the scene's own groups out of use. -/
def clearBoxes (t : SceneTables) : SceneTables := ownGroups.foldl (fun t g => setBoxCount g 0 t) t

/-- The first animation that an object slot belongs to by its range of slots. -/
def owner? (t : SceneTables) (i : Nat) : Option Nat :=
  t.animations.toList.findIdx? fun a =>
    a.firstObject.toInt ≤ (i : Int) ∧ (i : Int) < a.firstObject.toInt + a.objectsCount.toInt

/-- The animation that brought an object, told by the motions that came with it. -/
def objectAnimation? (t : SceneTables) (i : Nat) : Option Int :=
  match t.motion (t.object i).motionInit.toInt with
  | .ok m => some m.anim.toInt
  | .error _ => (t.owner? i).map fun (n : Nat) => (n : Int)

/-- Objects without use are inactive and know nothing. -/
def resetUnused (t : SceneTables) : SceneTables :=
  (List.range' t.objectsCount (maxObjects - t.objectsCount)).foldl
    (fun t i => t.modifyObject i fun o => { o with state := 0, vars := Vector.replicate numObjectVars 0 }) t

/-- Empties the tables of movies. -/
def dropAll (t : SceneTables) : SceneTables :=
  { t with
    nextScenes := []
    sounds := #[]
    animations := #[]
    objectsCount := 0
    motions := #[]
    frames := #[]
    loaded := .nothing }.resetUnused.clearBoxes

/-- Keeps the animations up to the given one, with what is theirs. -/
def keepUpTo (t : SceneTables) (anim : Fin t.animations.size) : SceneTables :=
  let a := t.animations[anim]
  let motions := t.motions.take (a.firstMotion.toInt + a.motionsCount.toInt).toNat
  let framesCount := match motions.back? with
    | some m => (m.firstFrame.toInt + m.count.toInt).toNat
    | none => 0
  { t with
    animations := t.animations.take (anim + 1)
    motions
    frames := t.frames.take framesCount
    objectsCount := min (a.firstObject.toInt + a.objectsCount.toInt).toNat maxObjects
    sounds := t.sounds.take (a.firstSound.toInt + a.soundsCount.toInt).toNat
    nextScenes := []
    loaded := .movies }.resetUnused.clearBoxes

/-- Drops what belongs to the animations behind the given one; -1 drops everything. -/
def dropBehind (t : SceneTables) (anim : Int) : Except GameError SceneTables := do
  if anim = -1 then return t.dropAll
  return t.keepUpTo (← Table.animations.check t.animations.size anim)

end SceneTables

end Adventure
