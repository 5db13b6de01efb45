import Adventure.Game.Tables
import Adventure.Resource.Background
import Adventure.Resource.InterfaceSprites
import Adventure.Resource.KeyLog
import Adventure.Save.Folder
import Adventure.Stage.Screen
import Adventure.Random

/-! A running game. -/

namespace Adventure

/-- What the next frame is a frame of. -/
inductive Mode where
  | game | bag | dialogue
  deriving DecidableEq, Repr, Inhabited

def Mode.name : Mode → String
  | .game => "game"
  | .bag => "bag"
  | .dialogue => "dialogue"

/-! The variables that the engine itself looks at. -/

namespace Var

/-- How badly the hero is hurt; at ten the game is over. -/
def damage : Fin numVars := ⟨0, by decide⟩

/-- A weapon is carried when its variable is not zero, and at hand when it is one. -/
def sword : Fin numVars := ⟨1, by decide⟩

def gun : Fin numVars := ⟨2, by decide⟩

/-- The magazines that are left for the gun. -/
def ammo : Fin numVars := ⟨3, by decide⟩

/-- The shots that are left in the gun. -/
def shots : Fin numVars := ⟨4, by decide⟩

/-- Asks for the end of the story. -/
def ending : Fin numVars := ⟨241, by decide⟩

/-- Keys are not seen while it is not zero. -/
def keysOff : Fin numVars := ⟨309, by decide⟩

end Var

/-- The bag, and where on the screen its selected entry is shown. -/
structure Bag where
  entries : List BagEntry := []
  x : Int16 := 0
  y : Int16 := 0
  /-- What the player does next: take, talk, turn to the girl, or use the selected entry. -/
  action : Int16 := 0
  /-- The number of the selected entry, or -1. -/
  selected : Int16 := -1

namespace Bag

/-- The action that uses the selected entry. -/
def useEntry : Int16 := 3

/-- The number of the entry of a name. -/
def find? (b : Bag) (name : String) : Option Nat := b.entries.findIdx? fun e => Text.sameName e.name name

def selected? (b : Bag) : Option BagEntry :=
  if b.selected < 0 then none else b.entries[b.selected.toInt.toNat]?

end Bag

/-- What the player sees besides the scene. -/
structure Interface where
  sprites : InterfaceSprites
  /-- The window of the bag. -/
  window : Surface
  /-- The packed banner of a lost game, which the demo does not have. -/
  banner : Option ByteArray
  lifeBarShown : Bool := false
  lifeBarFrame : Nat := 0
  entryBlink : Nat := 0
  weaponBlink : Nat := 0

/-- The music of the scene by its name, its track, and the file that is played. -/
structure Music where
  name : String := ""
  track : Int := 0
  file : Option String := none
  deriving DecidableEq, Repr, Inhabited

/-- The sound that scripts started last. -/
structure SceneSound where
  id : Int := Mixer.noSound
  priority : Int16 := 0
  deriving DecidableEq, Repr, Inhabited

/-- A dialogue that a script asks for: its name, its file and the two speakers' files. -/
structure DialogueRequest where
  id : String := ""
  file : String := ""
  jack : String := ""
  other : String := ""
  deriving DecidableEq, Repr, Inhabited

/-- How the last dialogue ended, and whether scripts can still see that it did. -/
structure DialogueEnding where
  number : Int := 0
  fresh : Bool := false
  deriving DecidableEq, Repr, Inhabited

/-- One of something for each speaker. -/
structure PerSpeaker (α : Type) where
  jack : α
  other : α
  kiss : α
  deriving DecidableEq, Repr, Inhabited

namespace PerSpeaker

variable {α : Type}

def get (p : PerSpeaker α) : Speaker → α
  | .jack => p.jack
  | .other => p.other
  | .kiss => p.kiss

def set (p : PerSpeaker α) (s : Speaker) (a : α) : PerSpeaker α :=
  match s with
  | .jack => { p with jack := a }
  | .other => { p with other := a }
  | .kiss => { p with kiss := a }

end PerSpeaker

/-- A dialogue while it is held. -/
structure Conversation where
  dialogue : Dialogue
  /-- The packed frame around a speaker. -/
  frame : ByteArray
  /-- The packed pictures of the speakers. -/
  heads : PerSpeaker (List ByteArray)
  /-- The picture of each speaker that comes next. -/
  head : PerSpeaker Nat := ⟨0, 0, 0⟩
  /-- Where the choices go. -/
  textRect : Rect

structure Game where
  settings : Settings
  data : DataDir
  saves : SaveFolder
  stage : Stage
  random : Random
  demo : Bool
  /-- The scene that the game starts with. -/
  firstScene : String
  ui : Interface
  /-- The 256 colours of the scene, four bytes each. -/
  palette : ByteArray := Bytes.replicate 1024 0
  background : Surface := Surface.screen
  /-- What is drawn of the scene; the background once it has been shown. -/
  frame : Surface := Surface.screen
  tables : SceneTables := {}
  defaultVars : Vars := Vector.replicate numVars 0
  vars : Vars := Vector.replicate numVars 0
  bag : Bag := {}
  mode : Mode := .game
  /-- The file to switch to, and whether the next frame does so. -/
  nextFile : String := ""
  switching : Bool := false
  /-- A saved game is put in place once its scene is there. -/
  restoring : Bool := false
  /-- The hero has died. -/
  lost : Bool := false
  sceneFile : String := ""
  sceneNumber : Int16 := 0
  /-- The first object sits out one frame; the scenes of the flight need this. -/
  firstRests : Bool := false
  /-- The scene that scripts have asked for in this frame. -/
  requested : Option NextScene := none
  music : Music := {}
  sound : SceneSound := {}
  keys : Vector UInt8 numKeys := Vector.replicate numKeys 0
  leftClick : Bool := false
  rightClick : Bool := false
  keyLog : Option KeyLog := none
  dialogueRequest : DialogueRequest := {}
  /-- A script asked for a dialogue in this frame. -/
  talking : Bool := false
  ending : DialogueEnding := {}
  conversation : Option Conversation := none
  slot : Nat := 1
  /-- When the last frame ended. -/
  lastFrame : UInt32 := 0
  framesRun : Nat := 0

/-- A game without files, on a stage of the usual rate. -/
instance : Inhabited Game := ⟨{
  settings := {}
  data := ⟨"DATA", []⟩
  saves := ⟨".", some []⟩
  stage := Stage.ofRate 22050
  random := Random.ofSeed 1
  demo := false
  firstScene := "-01.SCN"
  ui := { sprites := {}, window := Surface.screen, banner := none } }⟩

namespace Game

/-- A step of the game. A step that fails keeps what it did so far. -/
abbrev M := EStateM GameError Game

def onTables (f : SceneTables → SceneTables) : M Unit := modify fun g => { g with tables := f g.tables }

/-- Runs a step of the tables alone. -/
def withTables {α : Type} (m : SceneTables.M α) : M α := fun g =>
  match m g.tables with
  | .ok a tables => .ok a { g with tables }
  | .error e tables => .error e { g with tables }

def onObject (i : Nat) (f : SceneObject → SceneObject) : M Unit := onTables (SceneTables.modifyObject i f)

def onStage (f : Stage → Stage) : M Unit := modify fun g => { g with stage := f g.stage }

def onInput (f : Input → Input) : M Unit := onStage fun s => { s with input := f s.input }

def input : M Input := do return (← get).stage.input

def onMixer (f : Mixer → Mixer) : M Unit := onStage fun s => { s with mixer := f s.mixer }

def onBag (f : Bag → Bag) : M Unit := modify fun g => { g with bag := f g.bag }

def onUi (f : Interface → Interface) : M Unit := modify fun g => { g with ui := f g.ui }

/-- Draws on the frame. -/
def onFrame (f : Surface → Surface) : M Unit := modify fun g => { g with frame := f g.frame }

def setVar (i : Fin numVars) (v : Int16) : M Unit := modify fun g => { g with vars := g.vars.set i v }

def clearKeys : M Unit := modify fun g => { g with keys := Vector.replicate numKeys 0 }

/-- The object in a slot. -/
def object (g : Game) (i : Nat) : SceneObject := g.tables.object i

/-- A file that has to be there. -/
def readFile (name : String) : M ByteArray := do ofExcept (GameError.wrap .data ((← get).data.read name))

/-- Reads a file and what it holds. -/
def readResource {α : Type} (decode : ByteArray → Except ResourceError α) (name : String) : M α := do
  ofExcept (GameError.wrap .resource (decode (← readFile name)))

end Game

end Adventure
