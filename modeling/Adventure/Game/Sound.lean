import Adventure.Game.Basic

/-! Sounds and music of a game. At most one sound of a scene is followed; the music is
only named, and played elsewhere. -/

namespace Adventure.Game

/-- The sound that was started last is over. -/
def soundOver (g : Game) : Bool := !g.stage.mixer.isPlaying g.sound.id

def stopSound : M Unit := modify fun g =>
  { g with stage := { g.stage with mixer := g.stage.mixer.stop g.sound.id } }

/-- Starts a sound; a file that is missing or is no sound is passed over. -/
def startSound (name : String) : M Unit := modify fun g =>
  match g.data.read? name with
  | none => g
  | some file =>
    match g.stage.mixer.play file with
    | .ok (id, mixer) => { g with stage := { g.stage with mixer }, sound := { g.sound with id } }
    | .error _ => g

/-- The tracks of the music by the names of their pieces. -/
def tracks : List (String × Nat) :=
  [("flyaway", 2), ("jungle1", 3), ("sadialog", 4), ("caves", 5), ("jungle2", 6), ("darkcave", 7),
   ("waterdiv", 8), ("merian1", 9), ("telquad", 10), ("gameover", 11), ("complete", 12), ("musik", 3)]

/-- The part of a path behind its last slash or backslash. -/
def baseName (path : String) : String :=
  String.ofList (path.toList.reverse.takeWhile fun c => c ≠ '\\' ∧ c ≠ '/').reverse

/-- A file name without what follows its last dot. -/
def stem (file : String) : String :=
  match file.toList.reverse.dropWhile (· ≠ '.') with
  | [] => file
  | _ :: r => String.ofList r.reverse

/-- The track of a piece of music. -/
def track? (path : String) : Option Nat :=
  (tracks.find? fun p => Text.sameName p.1 (stem (baseName path))).map (·.2)

/-- A number with at least two digits. -/
def twoDigits (n : Nat) : String := if n < 10 then "0" ++ toString n else toString n

def trackFile (s : Settings) (n : Nat) : String :=
  Settings.joinPath s.musicPath ("track" ++ twoDigits n ++ ".ogg")

def stopMusic : M Unit := modify fun g => { g with music := { g.music with file := none } }

/-- Plays the track of a piece, or nothing if there is none; an empty name changes nothing. -/
def playMusic (name : String) : M Unit := modify fun g =>
  if name.isEmpty then g
  else { g with music := { g.music with file := (track? name).map (trackFile g.settings) } }

end Adventure.Game
