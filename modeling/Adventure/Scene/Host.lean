import Adventure.Scene.Tables
import Adventure.Text.Tokenizer

/-! What a scene description acts on, and how it can be wrong. Movies and pictures are
loaded while the text is read, so that a later line sees what an earlier one did. -/

namespace Adventure

/-- The part of a scene description that a line belongs to. -/
inductive Section where
  | top | movies | bag | scenes | object | newObject | boxes
  deriving DecidableEq, Repr, Inhabited

def Section.name : Section → String
  | .top => "Def"
  | .movies => "Movies"
  | .bag => "Bag"
  | .scenes => "Scene"
  | .object => "Object"
  | .newObject => "NewObject"
  | .boxes => "Box"

inductive SceneError where
  | token (e : TokenError)
  | unexpected (word : String) (part : Section)
  | missingThen (word : String)
  | comparison (word : String)
  | mirror (word : String)
  | initMode (word : String)
  | varIndex (i : Int)
  | objectVarIndex (i : Int)
  | statusIndex (i : Int)
  | boxIndex (group : Int) (index : Nat)
  | boxColors (start stop : Int)
  | tooManyNextScenes
  | tooManyBagObjects
  deriving DecidableEq, Repr

def SceneError.message : SceneError → String
  | .token e => e.message
  | .unexpected w s => s!"Unexpected token '{w}' in state {s.name}"
  | .missingThen w => s!"Expected '->' after condition, got '{w}'"
  | .comparison w => s!"Invalid compare operator '{w}'"
  | .mirror w => s!"Unexpected mirror mode '{w}'"
  | .initMode w => s!"Unexpected init mode '{w}'"
  | .varIndex i => s!"Global variable index {i} out of range"
  | .objectVarIndex i => s!"Object variable index {i} out of range"
  | .statusIndex i => s!"Object status index {i} out of range"
  | .boxIndex g i => s!"Box {g}/{i} out of range"
  | .boxColors a b => s!"Invalid box mix colors {a}+{b}"
  | .tooManyNextScenes => "Too many next scenes"
  | .tooManyBagObjects => "Too many bag objects"

/-- What a scene description can see and change. -/
class SceneHost (H : Type) (ε : outParam Type) where
  fault : SceneError → ε
  /-- Comes before the first word: there is no scene number yet, and the variables are
  those that the scene starts with. -/
  start : H → H
  var : H → Nat → Int16
  sceneNumber : H → Int16
  setSceneNumber : Int16 → H → H
  /-- The names of the animations that are loaded. -/
  animations : H → List String
  /-- Drops all that was loaded behind an animation; -1 drops everything. -/
  dropBehind : Int → EStateM ε H Unit
  /-- A movie comes next, on top of what is there. -/
  expectMovie : H → H
  loadMovie : String → EStateM ε H Unit
  loadScreen : String → EStateM ε H Unit
  setMusic : Option String → H → H
  setTrack : Int → H → H
  findObject : H → String → Option Nat
  modifyObject : Nat → (SceneObject → SceneObject) → H → H
  /-- The animation that brought an object, if it can be told. -/
  objectAnimation : H → Nat → Option Int
  status? : H → Nat → Option ObjectStatus
  setBagPosition : Int16 → Int16 → H → H
  hasBagEntry : H → String → Bool
  addBagEntry : String → String → EStateM ε H Unit
  addNextScene : NextScene → EStateM ε H Unit
  boxCount : H → Nat → Nat
  /-- The box in a slot of a group. -/
  box : H → Nat → Nat → SceneBox
  /-- Fills the next slot of a group. -/
  pushBox : Nat → SceneBox → H → H

end Adventure
