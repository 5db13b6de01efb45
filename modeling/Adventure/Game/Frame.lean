import Adventure.Game.BagWindow
import Adventure.Game.Conversation
import Adventure.Game.Loading
import Adventure.Game.Slots
import Adventure.Script.Run
import Adventure.Video.Playback

/-! Running a game frame by frame. -/

namespace Adventure.Game

/-- The time from one frame to the next. -/
def cycle : UInt32 := 50

def gameOverMusic : String := "..\\midi\\gameover.mid"

/-- The variables' value at which the hero dies. -/
def deadly : Int16 := 10

/-- Back to the first scene, with nothing of what happened since. -/
def restarted (g : Game) : Game :=
  { g with
    stage := { g.stage with mixer := g.stage.mixer.stopAll }
    ui := { g.ui with lifeBarShown := false, lifeBarFrame := 0, entryBlink := 0, weaponBlink := 0 }
    tables := {}
    defaultVars := Vector.replicate numVars 0
    vars := Vector.replicate numVars 0
    bag := { x := 585, y := 23 }
    mode := .game
    nextFile := g.firstScene
    switching := true
    restoring := false
    lost := false
    sceneFile := ""
    sceneNumber := 0
    music := {}
    sound := {}
    keys := Vector.replicate numKeys 0
    keyLog := none
    dialogueRequest := {}
    talking := false
    ending := {}
    conversation := none }

def restart : M Unit := modify restarted

/-- Takes over the colours of the scene, if there are any. -/
def usePalette : M Unit := modify fun g =>
  if g.tables.loaded = .nothing then g else { g with stage := g.stage.setPalette g.palette 256 }

/-- Reads a scene outside of the frames. -/
def loadScene (name : String) : M Unit := do
  modify fun g => { g with sceneFile := name }
  readScene name
  usePalette

/-- Plays a cutscene, if it is there. -/
def playVideo (path : String) : M (Option PlaybackReport) := do
  match (← get).data.find? path with
  | none => return none
  | some file =>
    onStage fun s => (s.fillRect 0 0 screenWidth screenHeight 0).present
    onMixer Mixer.stopAll
    fun g =>
      match Playback.play file.content g.stage with
      | .ok report stage => .ok (some report) { g with stage }
      | .error e stage => .error (.video e) { g with stage }

/-- The recorded keys that go with a saved game of the demo. -/
def loadKeys (name : String) : M Unit := modify fun g =>
  let log := String.ofList (name.toList.take (name.length - 3)) ++ "KBR"
  { g with keyLog := (g.data.read? log).map KeyLog.ofBytes }

/-! Switching scenes -/

/-- What switching comes to: the game is at its end, starts anew, or goes on. -/
inductive Switch where
  | ended | restarted | entered
  deriving DecidableEq, Repr

/-- The scene that ends the game. -/
def lastScene : String := "PIC4.SCN"

/-- The saved game at which the demo starts anew. -/
def demoEnd : String := "A16.SAV"

/-- Takes the file to switch to. -/
def takeFile (name : String) : M Switch := do
  if Text.endsWithName name "SCN" then
    stopSound
    if name = lastScene then return .ended
    modify fun g => { g with sceneFile := name }
    readScene name
    return .entered
  else if Text.endsWithName name "SAV" then
    if (← get).demo && name = demoEnd then
      restart
      return .restarted
    loadKeys name
    return .entered
  else
    loadMovie name
    return .entered

/-- Puts in place the saved game that asked for the scene. -/
def finishRestoring : M Unit := do
  if (← get).restoring then
    modify fun g => { g with restoring := false }
    restoreSlot (← get).slot
    playMusic (← get).music.name
    clearKeys

/-- With something in the bag its first entry is selected. -/
def selectFirst (b : Bag) : Bag :=
  if b.selected = -1 ∧ !b.entries.isEmpty then { b with selected := 0 } else b

def switchScene : M Switch := do
  modify fun g => { g with switching := false }
  let s ← takeFile (← get).nextFile
  if s = .entered then
    finishRestoring
    if (← get).tables.objectsCount = 0 then throw .emptyScene
    onBag selectFirst
    usePalette
    modify fun g => { g with lost := false, firstRests := g.sceneFile.startsWith "FLY" }
  return s

/-! The player -/

/-- The keys of the table that the player's input sets, by their codes. -/
def inputKeys (i : Input) : List (Nat × Bool) :=
  [(13, i.enter), (16, i.shift), (32, i.space), (37, i.holds .left), (38, i.holds .up), (39, i.holds .right),
   (40, i.holds .down)]

def setKeys (i : Input) (keys : Vector UInt8 numKeys) : Vector UInt8 numKeys :=
  (inputKeys i).foldl (fun keys k => keys.setIfInBounds k.1 (if k.2 then 1 else 0)) keys

/-- A table of keys from a recording. -/
def keysOf (record : ByteArray) : Vector UInt8 numKeys := Vector.ofFn fun i => Bytes.at0 record i

/-- Keys that are played back stand in for those of the player. -/
def playKeys (g : Game) : Game :=
  match g.keyLog with
  | none => g
  | some log =>
    match log.next with
    | (some record, log) => { g with keys := keysOf record, keyLog := some log }
    | (none, log) => { g with keyLog := some log }

/-- Changes the slot of saved games, within the slots that there are. -/
def changeSlot (d : Int) : M Unit := modify fun g =>
  let slot := (g.slot : Int) + d
  { g with
    slot := if 1 ≤ slot ∧ slot ≤ 999 then slot.toNat else g.slot
    stage := { g.stage with input := { g.stage.input with slotChange := 0 } } }

/-- Opens the bag. -/
def takeTab (i : Input) : M Unit := do
  if i.tab then
    onInput fun i => { i with tab := false }
    modify fun g => { g with mode := .bag }

/-- Shows the life bar, or hides it. -/
def takeCtrl (i : Input) : M Unit := do
  if i.ctrl then
    onInput fun i => { i with ctrl := false }
    onUi fun u => { u with lifeBarShown := !u.lifeBarShown }

/-- Asks for the saved game of the slot. -/
def takeLoad (i : Input) : M Unit := do
  if i.load then
    onInput fun i => { i with load := false }
    requestSlot (← get).slot
    modify fun g => { g with restoring := g.switching }

def takeSave (i : Input) : M Unit := do
  if i.save then
    onInput fun i => { i with save := false }
    saveSlot (← get).slot

/-- Starts anew when the game has been lost. -/
def takeRestart : M Unit := do
  let g ← get
  if g.lost && g.stage.input.enter then
    onInput fun i => { i with enter := false }
    restart

def takeKeys : M Unit := do
  let i ← input
  modify fun g => playKeys { g with keys := setKeys i g.keys }
  takeTab i
  takeCtrl i
  if i.slotChange ≠ 0 then changeSlot i.slotChange
  takeLoad i
  takeSave i
  takeRestart

/-- Takes the clicks since the last frame. -/
def takeClicks : M Unit := modify fun g =>
  let i := g.stage.input
  { g with
    leftClick := i.leftButton
    rightClick := i.rightButton
    stage := { g.stage with input := { i with leftButton := false, rightButton := false } } }

/-! Objects -/

/-- Runs the scripts of objects that were drawn. -/
def runScripts : List Nat → M Unit
  | [] => pure ()
  | i :: r => do
    let g ← get
    let o := g.object i
    if o.statePrev ≠ 0 ∧ o.statePrev ≠ -1 then
      let anim ← ofExcept (do g.tables.animation (← g.tables.animationOf o))
      runScript i anim.script
    runScripts r

def startObjects : List Nat → M Unit
  | [] => pure ()
  | i :: r => do
    startObject i
    startObjects r

/-- Objects that were about to go are gone. -/
def removeObjects (t : SceneTables) : SceneTables :=
  (List.range t.objectsCount).foldl
    (fun t i => t.modifyObject i fun o => if o.state = -1 then { o with state := 0 } else o) t

/-- Draws the scene and moves the objects on. -/
def drawObjects : M Unit := do
  drawScene
  onTables removeObjects
  advanceObjects (List.range (← get).tables.objectsCount)

/-- The hero is too badly hurt to go on. -/
def checkOver : M Unit := do
  let g ← get
  if deadly ≤ g.vars.get Var.damage ∧ !g.lost then
    modify fun g => { g with music := { g.music with name := gameOverMusic } }
    playMusic gameOverMusic
    modify fun g => { g with lost := true }

/-- Switches to the scene that scripts asked for. -/
def followRequest (g : Game) : Game :=
  match g.requested with
  | some s => { g with nextFile := s.name, switching := true }
  | none => g

/-- The frame of a scene with movies. -/
def sceneFrame : M Unit := do
  let g ← get
  let all := List.range g.tables.objectsCount
  modify fun g => { g with firstRests := false }
  runScripts (if g.firstRests then all.drop 1 else all)
  modify fun g => followRequest { g with ending := { g.ending with fresh := false } }
  startObjects all
  checkOver
  if (← get).tables.loaded = .movies then drawObjects

/-- Shows the end of the story when scripts ask for it. -/
def finishStory : M Unit := do
  if (← get).vars.get Var.ending = 1 then
    stopMusic
    dropBehind (-1)
    setVar Var.ending 2
    discard (playVideo "DATA/FINAL.AVI")
    modify fun g => { g with nextFile := "END.SCN", switching := true }

def objectsFrame : M Unit := do
  modify fun g => { g with requested := none }
  if (← get).vars.get Var.keysOff ≠ 0 then clearKeys
  if (← get).tables.loaded = .movies then sceneFrame
  finishStory

/-! Frames -/

/-- Lets time pass until the end of a frame, unless the player is in a hurry or wants to
quit. The first argument bounds the number of waits by that of all times. -/
def waitUntil (time : UInt32) : Nat → Stage → Stage
  | 0, s => s
  | n + 1, s =>
    let s := (s.sleep 10).processEvents
    if s.input.fast || time ≤ s.now || s.quit then s else waitUntil time n s

/-- Shows the screen and waits for the next frame. -/
def endFrame : M Unit := modify fun g =>
  let stage := waitUntil (g.lastFrame + cycle) UInt32.size g.stage.present
  { g with stage, lastFrame := stage.now }

/-- A frame of the scene, behind the switch to it. -/
def playFrame : M Unit := do
  takeKeys
  takeClicks
  objectsFrame
  if !(← get).switching then endFrame
  if (← get).talking then
    modify fun g => { g with talking := false }
    beginDialogue

/-- Gives false at the end of the game. -/
def gameFrame : M Bool := do
  let s ← if (← get).switching then switchScene else pure .entered
  match s with
  | .ended => return false
  | .restarted => return true
  | .entered =>
    playFrame
    return true

/-- One frame. Gives false at the end of the game. -/
def runFrame : M Bool := do
  modify fun g => { g with framesRun := g.framesRun + 1 }
  match (← get).mode with
  | .game => gameFrame
  | .bag =>
    bagFrame
    endFrame
    return true
  | .dialogue =>
    dialogueFrame
    if (← get).mode = .game then endDialogue
    endFrame
    return true

end Adventure.Game
