import Adventure.FileTree
import Adventure.Settings
import Adventure.Text.Name

/-! The files of the game. A folder is listed once; files are then looked up by
their path below it without the case of letters. -/

namespace Adventure

inductive DataError where
  | notFound (name : String)
  deriving DecidableEq, Repr

def DataError.message : DataError → String
  | .notFound name => s!"Unable to open '{name}'"

/-- The files below `root`, each with its path from there, in the order of these paths. -/
structure DataDir where
  root : String
  files : List StoredFile

namespace DataDir

/-- The path of a file from its folder, if no name of it is hidden. -/
def shown? (names : List String) : Option String :=
  if names.isEmpty ∨ names.any (·.startsWith ".") then none else some (String.intercalate "/" names)

/-- Lists the files below `root`. -/
def index (root : String) (t : FileTree) : DataDir where
  root
  files :=
    let entries := t.files.filterMap fun f => do
      let names ← (Place.ofPath f.path).within? (← t.follow? root)
      return { f with path := ← shown? names }
    entries.mergeSort fun a b => !(b.path < a.path)

/-- The file with the given path from the root. -/
def find? (d : DataDir) (relative : String) : Option StoredFile :=
  d.files.find? fun f => Text.sameName f.path relative

/-- The file that a game name stands for. -/
def resolve? (d : DataDir) (name : String) : Option StoredFile := d.find? (Text.dataPath name)

def fullPath (d : DataDir) (f : StoredFile) : String := Settings.joinPath d.root f.path

def contains (d : DataDir) (name : String) : Bool := (d.resolve? name).isSome

def read? (d : DataDir) (name : String) : Option ByteArray := (d.resolve? name).map (·.content)

def read (d : DataDir) (name : String) : Except DataError ByteArray :=
  match d.read? name with
  | some b => .ok b
  | none => .error (.notFound name)

end DataDir

end Adventure
