import Adventure.Game.Start
import Adventure.Picture.Tga
import Adventure.Report.Request
import Adventure.Text.Base64

/-! Running a game without a player, and what is to be said about it afterwards. -/

namespace Adventure

/-- Where a run ended. -/
structure RunReport where
  demo : Bool
  framesRun : Nat
  ended : Bool
  scene : String
  sceneNumber : Int16
  mode : Mode
  track : Int
  lost : Bool
  bag : List String
  objects : Nat
  varsHash : String
  lastFrames : List FrameRecord
  /-- The last screen as an image. -/
  screen : ByteArray

namespace RunReport

def engineVersion : String := "0.1.0"

/-- The number of frames that are reported. -/
def shownFrames : Nat := 8

/-- The pixels of a screen. -/
def pixels (screen : ByteArray) : List Rgb :=
  (List.range (screenWidth * screenHeight)).map fun i => Stage.getPixel screen i

def ofGame (g : Game) (framesRun : Nat) (ended : Bool) : RunReport where
  demo := g.demo
  framesRun
  ended
  scene := g.sceneFile
  sceneNumber := g.sceneNumber
  mode := g.mode
  track := g.music.track
  lost := g.lost
  bag := g.bag.entries.map (·.name)
  objects := g.tables.objectsCount
  varsHash := Sha256.hexDigest (SaveState.pushWords ByteArray.empty g.vars.toList)
  lastFrames := (g.stage.recent.take shownFrames).reverse
  screen := Tga.encode (pixels g.stage.screen) screenWidth screenHeight

def frameJson (f : FrameRecord) : Json :=
  .obj [("index", .int f.index), ("time_ms", .int f.time.toNat), ("yuv", .bool f.overlay), ("sha256", .str f.digest)]

def screenJson (screen : ByteArray) : Json :=
  .obj [("format", .str "tga"), ("size", .arr [.int screenWidth, .int screenHeight]),
    ("data_base64", .str (Text.Base64.encode screen)), ("hash", .str (Sha256.hexDigest screen))]

def toJson (r : RunReport) : Json :=
  .obj [("engine_version", .str engineVersion), ("demo", .bool r.demo), ("frames_run", .int r.framesRun),
    ("game_ended", .bool r.ended), ("scene", .str r.scene), ("scene_number", .int r.sceneNumber.toInt),
    ("mode", .str r.mode.name), ("music_track", .int r.track), ("game_over", .bool r.lost),
    ("bag", .arr (r.bag.map .str)), ("objects", .int r.objects), ("vars_hash", .str r.varsHash),
    ("last_frames", .arr (r.lastFrames.map frameJson)), ("screen", screenJson r.screen)]

end RunReport

namespace RunRequest

/-- Runs frames until the game ends, `n` at most. Gives their number and whether it ended. -/
def runFrames : Nat → Nat → Game.M (Nat × Bool)
  | 0, done => return (done, false)
  | n + 1, done => do
    if ← Game.runFrame then runFrames n (done + 1) else return (done + 1, true)

/-- A game that plays what is asked for. Without a seed in the request the given one is used. -/
def run (r : RunRequest) (settings : Settings) (data : DataDir) (seed : UInt16) : Except GameError RunReport := do
  let stage := r.inputs.foldl Stage.scheduleInput (Stage.ofRate settings.outputRate)
  let saves : SaveFolder := ⟨settings.savePath, none⟩
  let g ← Game.start settings data saves stage (r.seed.getD seed)
  let steps : Game.M (Nat × Bool) := do
    if !r.skipIntro then Game.playIntro
    runFrames r.frames 0
  match steps g with
  | .ok (n, ended) g => return RunReport.ofGame g n ended
  | .error e _ => throw e

end RunRequest

end Adventure
