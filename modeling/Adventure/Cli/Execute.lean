import Adventure.Cli.Arguments
import Adventure.Json.Pretty
import Adventure.Report.Describe
import Adventure.Report.Run

/-! Executing commands on the files of a folder: they describe resources and scenes,
unpack files, and run the game. -/

namespace Adventure.Cli

/-- Why a command failed. -/
inductive Failure where
  | file (path : String)
  | request
  | codec (e : CodecError)
  | resource (e : ResourceError)
  | dialogue (e : DialogueError)
  | save (e : SaveError)
  | video (e : VideoError)
  | game (e : GameError)
  deriving DecidableEq, Repr

namespace Failure

def kind : Failure → String
  | .file _ => "io"
  | .request => "serialization"
  | .codec _ => "decode"
  | .resource _ => "resource"
  | .dialogue _ => "parse"
  | .save _ => "save"
  | .video _ => "avi"
  | .game _ => "game"

/-- A file that cannot be read is reported like one that cannot be written. -/
def message : Failure → String
  | .file path => (GameError.write path).message
  | .request => "Serialization error: invalid request"
  | .codec e => e.message
  | .resource e => e.message
  | .dialogue e => e.message
  | .save e => e.message
  | .video e => e.message
  | .game e => e.message

/-- Files that are not what they should be have an exit code of their own. -/
def exitCode : Failure → UInt8
  | .file _ => 1
  | .request => 1
  | .game _ => 1
  | _ => 2

def toJson (f : Failure) : Json :=
  .obj [("success", .bool false), ("kind", .str f.kind), ("error", .str f.message)]

def wrap {ε α : Type} (f : ε → Failure) : Except ε α → Except Failure α
  | .ok a => .ok a
  | .error e => .error (f e)

end Failure

/-- What a command answers, and the files that it writes. -/
structure Answer where
  value : Json
  written : List StoredFile := []

/-- A step of a command on the files that are there. -/
abbrev M := ReaderT FileTree (Except Failure)

def readFile (path : String) : M ByteArray := do
  match (← read).find? path with
  | some data => return data
  | none => throw (.file path)

def writeFile (path : String) (content : ByteArray) : M StoredFile := do
  if ((← read).follow? path).isSome then return ⟨path, content⟩ else throw (.file path)

def dataOf (s : Settings) : M DataDir := do return DataDir.index s.dataPath (← read)

def scan (s : Settings) : M Answer := do
  let d ← dataOf s
  return ⟨.obj [("root", .str s.dataPath), ("count", .int d.files.length),
    ("startup_scene", (Game.firstScenes.find? d.contains).elim .null .str),
    ("demo", .bool (d.contains Game.demoScene)), ("files", .arr (d.files.map fun f => .str f.path))], []⟩

def unpack (codec : Packing) (input output : String) : M Answer := do
  let data ← readFile input
  let decoded ← Failure.wrap .codec (codec.decode data)
  let file ← writeFile output decoded
  return ⟨.obj [("input_size", .int data.size), ("output_size", .int decoded.size),
    ("sha256", .str (Sha256.hexDigest decoded))], [file]⟩

/-- A background as an image. -/
def imageOf (b : Background) : ByteArray :=
  let colors := Palette.toRgb b.palette
  Tga.encode (b.surface.topDown.toList.map fun c => Stage.color colors c) b.surface.width b.surface.height

def background (input : String) (image : Option String) : M Answer := do
  let b ← Failure.wrap .resource (Background.decode (← readFile input))
  match image with
  | none => return ⟨Describe.background b, []⟩
  | some path => return ⟨Describe.background b, [← writeFile path (imageOf b)]⟩

def sprites (input : String) : M Answer := do
  let b ← Failure.wrap .resource (SpriteBank.decode (← readFile input))
  return ⟨Describe.bank b, []⟩

def movie (input : String) : M Answer := do
  let m ← Failure.wrap .resource (Movie.decode (← readFile input))
  return ⟨.obj [("movie", Describe.movie m), ("script_size", .int m.script.size),
    ("script_sha256", .str (Sha256.hexDigest m.script))], []⟩

/-- A scene as it is in a new game. -/
def scene (s : Settings) (name : String) (seed : UInt16) : M Answer := do
  let saves : SaveFolder := ⟨s.savePath, none⟩
  let g ← Failure.wrap .game (Game.start s (← dataOf s) saves (Stage.ofRate 22050) seed)
  match Game.loadScene name g with
  | .error e _ => throw (.game e)
  | .ok () g =>
    return ⟨.obj [("scene", .str g.sceneFile), ("scene_number", .int g.sceneNumber.toInt),
      ("animations", .arr (g.tables.animations.toList.map fun a => .str a.name)),
      ("objects", .arr (g.tables.activeObjects.map Describe.object)),
      ("next_scenes", .arr (g.tables.nextScenes.map Describe.nextScene)),
      ("bag", .arr (g.bag.entries.map fun e => .str e.name)), ("music_track", .int g.music.track)], []⟩

/-- What is offered for a name. -/
def offered (entries : List DialogueEntry) (id : String) : List (String × Json) :=
  let d := ((Dialogue.ofEntries entries).setup id).2
  [("choices", .arr (d.choices.map Describe.entry)), ("sprite_index", Describe.speaker d.speaker)]

def dialogue (input : String) (id : Option String) : M Answer := do
  let text := Text.latin1 (Text.stripComments (← readFile input).toList)
  let entries ← Failure.wrap .dialogue (Dialogue.parse text)
  return ⟨.obj (("entries", .arr (entries.map Describe.entry)) :: (id.elim [] (offered entries))), []⟩

def save (input : String) : M Answer := do
  let data ← readFile input
  let s ← Failure.wrap .save (SaveState.read data true)
  return ⟨.obj [("summary", Describe.saved s), ("sha256", .str (Sha256.hexDigest data))], []⟩

def video (input : String) : M Answer := do
  let (h, audio, video) ← Failure.wrap .video (Demuxer.scan (← readFile input))
  return ⟨.obj [("header", Describe.video h), ("audio_chunks", .int audio), ("video_chunks", .int video)], []⟩

/-- Runs the game, as the payload asks for if there is one. -/
def run (s : Settings) (flags : RunRequest) (payload : Option String) (seed : UInt16) : M Answer := do
  let request ← match payload with
    | none => pure flags
    | some text => match RunRequest.ofText? text with
      | some r => pure r
      | none => throw .request
  let report ← Failure.wrap .game (request.run s (← dataOf s) seed)
  return ⟨report.toJson, []⟩

/-- Executes a command. The seed is that of games which are not told one. -/
def execute (s : Settings) (seed : UInt16) : Command → M Answer
  | .scan => scan s
  | .decode codec input output => unpack codec input output
  | .background input image => background input image
  | .sprites input => sprites input
  | .movie input => movie input
  | .scene name => scene s name seed
  | .dialogue input id => dialogue input id
  | .save input => save input
  | .video input => video input
  | .run frames skipIntro given payload => run s { frames, skipIntro, seed := given } payload seed

/-- The settings that the arguments ask for; the flags win over the file. -/
def settingsOf? (a : Arguments) (t : FileTree) : Option Settings := do
  let s ← match a.config with
    | none => some {}
    | some path => do Settings.ofText? (← String.fromUTF8? (← t.find? path))
  return { s with dataPath := a.data.getD s.dataPath, logProfile := a.profile.getD s.logProfile }

/-- What the program leaves behind: its exit code, what it prints, and what it writes. -/
structure Outcome where
  exitCode : UInt8
  output : Option Json := none
  written : List StoredFile := []

/-- The files that the arguments name, to read from and to write to. -/
def Command.paths : Command → List String × List String
  | .decode _ input output => ([input], [output])
  | .background input image => ([input], image.toList)
  | .sprites input => ([input], [])
  | .movie input => ([input], [])
  | .dialogue input _ => ([input], [])
  | .save input => ([input], [])
  | .video input => ([input], [])
  | _ => ([], [])

/-- The command looks into the folder of the game's data. -/
def Command.usesData : Command → Bool
  | .scan => true
  | .scene _ => true
  | .run .. => true
  | _ => false

/-- What the program does on its arguments. -/
def outcome (words : List String) (t : FileTree) (seed : UInt16) : Outcome :=
  match Arguments.read words with
  | .error .help => { exitCode := 0 }
  | .error .wrong => { exitCode := 2 }
  | .ok a =>
    match settingsOf? a t with
    | none => { exitCode := 1 }
    | some s =>
      match execute s seed a.command t with
      | .ok answer => { exitCode := 0, output := some answer.value, written := answer.written }
      | .error f => { exitCode := f.exitCode, output := some f.toJson }

end Adventure.Cli
