import Adventure.Game.Frame

/-! Starting a game, and running it to its end. -/

namespace Adventure.Game

/-- The scenes that a game can start with. -/
def firstScenes : List String := ["-01.SCN", "_01.SCN"]

/-- The scene that only the demo has. -/
def demoScene : String := "-00.SCN"

/-- The files of the interface. -/
def bannerFile : String := "..\\bermuda.ovr"

def windowFile : String := "..\\bermuda.wgp"

def spritesFile : String := "..\\bermuda.spr"

/-- Loads what the player sees besides the scenes. -/
def readInterface (data : DataDir) (demo : Bool) : Except GameError Interface := do
  let banner ← if demo then pure none else some <$> GameError.wrap .data (data.read bannerFile)
  let window ← GameError.wrap .data (data.read windowFile)
  let window ← GameError.wrap .resource (Background.decode window)
  let sprites ← GameError.wrap .data (data.read spritesFile)
  let sprites ← GameError.wrap .resource (InterfaceSprites.decode sprites demo)
  return { sprites, window := window.surface, banner }

/-- A game on a stage, about to enter its first scene. -/
def start (settings : Settings) (data : DataDir) (saves : SaveFolder) (stage : Stage) (seed : UInt16) :
    Except GameError Game := do
  match firstScenes.find? data.contains with
  | none => throw .noStartScene
  | some firstScene =>
    let demo := settings.demo.getD (data.contains demoScene)
    let ui ← readInterface data demo
    let stage := { stage with mixer := stage.mixer.setVolume settings.soundVolume }.startAudio
    return restarted { settings, data, saves, stage, random := Random.ofSeed seed, demo, firstScene, ui }

/-! The intro -/

/-- Shows a picture of the title until the player goes on. Gives true when the player
quits. While no frame is shown no new input comes in, so that there is one look at it. -/
def showTitle (name : String) : M Bool := do
  match (← get).data.read? name with
  | none => return false
  | some file =>
    let b ← ofExcept (GameError.wrap .resource (Background.decode file))
    let s := b.surface
    onStage fun stage =>
      (((stage.setPalette b.palette 256).copyRect 0 0 s.width s.height s.bits s.pitch false).present.sleep 10).processEvents
    if (← get).stage.quit then return true
    onInput fun i => { i with enter := false }
    return false

def showTitles : List String → M Unit
  | [] => pure ()
  | name :: r => do
    if !(← showTitle name) then showTitles r

/-- The pictures of the demo's title. -/
def titles : List String := ["..\\title.bmp", "..\\title1.bmp", "..\\title2.bmp"]

/-- Plays the intro: the pictures of the title, or two cutscenes. -/
def playIntro : M Unit := do
  if (← get).demo then showTitles titles
  else
    discard (playVideo "DATA/LOGO.AVI")
    discard (playVideo "DATA/INTRO.AVI")
  modify fun g => { g with lastFrame := g.stage.now }

/-- Runs frames until the player quits or the game is at its end. The first argument
bounds their number. -/
def runFrames : Nat → M Unit
  | 0 => pure ()
  | n + 1 => do
    if !(← get).stage.quit then
      if ← runFrame then runFrames n

/-- Plays the intro and the game, and gives the number of frames. That number has 64 bits. -/
def run : M Nat := do
  playIntro
  runFrames UInt64.size
  dropBehind (-1)
  stopMusic
  onStage Stage.stopAudio
  return (← get).framesRun

end Adventure.Game
