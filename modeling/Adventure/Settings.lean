import Adventure.Json.Reader
import Adventure.Word

/-! The engine's settings and their JSON form. -/

namespace Adventure

/-- How much the engine logs, and in which form. -/
inductive LogProfile where
  | development | production | test
  deriving DecidableEq, Repr, Inhabited

def LogProfile.name : LogProfile → String
  | .development => "development"
  | .production => "production"
  | .test => "test"

def LogProfile.ofName? (s : String) : Option LogProfile :=
  [LogProfile.development, .production, .test].find? fun p => p.name == s

/-- What a run of the engine can be told from outside. -/
structure Settings where
  /-- The folder with the scene, picture and sound folders of the game. -/
  dataPath : String := "DATA"
  savePath : String := "."
  /-- The folder of the digital music tracks. -/
  musicPath : String := "MUSIC"
  logProfile : LogProfile := .development
  soundVolume : Int := 256
  outputRate : Nat := 22050
  /-- The data has the demo's layout; looked up in the data when not given. -/
  demo : Option Bool := none
  deriving DecidableEq, Repr, Inhabited

namespace Settings

/-- One path below another. -/
def joinPath (dir name : String) : String :=
  if dir.isEmpty then name else if dir.endsWith "/" then dir ++ name else dir ++ "/" ++ name

/-- A number with at least three digits. -/
def threeDigits (n : Nat) : String :=
  let s := toString n
  String.ofList (List.replicate (3 - s.length) '0') ++ s

/-- The name of a slot's file inside of the save folder. -/
def slotName (slot : Nat) : String := "bermuda." ++ threeDigits slot

/-- The path of a slot's file. -/
def saveFile (s : Settings) (slot : Nat) : String := joinPath s.savePath (slotName slot)

def toJson (s : Settings) : Json := .obj [
  ("data_path", .str s.dataPath), ("save_path", .str s.savePath), ("music_path", .str s.musicPath),
  ("log_profile", .str s.logProfile.name), ("sound_volume", .int s.soundVolume),
  ("output_rate", .int s.outputRate), ("demo", s.demo.elim .null .bool)]

/-- The names of the settings, in the order in which an array gives them. -/
def fieldNames : List String :=
  ["data_path", "save_path", "music_path", "log_profile", "sound_volume", "output_rate", "demo"]

/-- A profile: its name, or an object with the name as its only member and no content. -/
def readProfile : Json → Option LogProfile
  | .str s => LogProfile.ofName? s
  | .obj [(k, .null)] => LogProfile.ofName? k
  | _ => none

/-- Changes one setting. -/
def set (s : Settings) (name : String) (v : Json) : Option Settings :=
  match name, v with
  | "data_path", .str t => some { s with dataPath := t }
  | "save_path", .str t => some { s with savePath := t }
  | "music_path", .str t => some { s with musicPath := t }
  | "log_profile", v => (readProfile v).map fun p => { s with logProfile := p }
  | "sound_volume", .int n =>
    if Word.fits n then some { s with soundVolume := n } else none
  | "output_rate", .int n => if 0 ≤ n ∧ n < UInt32.size then some { s with outputRate := n.toNat } else none
  | "demo", .null => some { s with demo := none }
  | "demo", .bool b => some { s with demo := some b }
  | _, _ => none

/-- Settings that are not given keep their default. None may be given twice. -/
def ofJson? (v : Json) : Option Settings := do
  (← v.fields? fieldNames).foldlM (fun s m => s.set m.1 m.2) {}

/-- Settings from JSON text. -/
def ofText? (text : String) : Option Settings :=
  (Json.parse? (.members (fieldNames.map (·, .whole))) text).bind ofJson?

end Settings

end Adventure
