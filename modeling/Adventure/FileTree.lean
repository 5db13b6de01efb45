/-! A tree of files, and finding a file by its path. A path is followed name by name; each
name but the last one has to lead to a folder, also if two dots lead out of it again. -/

namespace Adventure

/-- A file with its path and content. -/
structure StoredFile where
  path : String
  content : ByteArray

/-- A place in the tree: the names that lead to it from the root or from the working
folder, the last one first. Two dots are kept where they lead out of the working folder. -/
structure Place where
  rooted : Bool
  names : List String
  deriving DecidableEq, Repr

namespace Place

/-- The place above. Nothing is above the root. -/
def up (p : Place) : Place :=
  match p.names with
  | [] => if p.rooted then p else { p with names := [".."] }
  | name :: above => { p with names := if name = ".." then ".." :: name :: above else above }

def step (p : Place) (name : String) : Place :=
  if name = "" ∨ name = "." then p
  else if name = ".." then p.up
  else { p with names := name :: p.names }

/-- Where a path starts. -/
def start (path : String) : Place := ⟨path.startsWith "/", []⟩

/-- Where a path leads if all of its names can be followed. -/
def ofPath (path : String) : Place := (path.splitOn "/").foldl step (start path)

/-- The names that lead from a folder to a place in it. -/
def within? (p folder : Place) : Option (List String) :=
  if p.rooted = folder.rooted ∧ folder.names.isSuffixOf p.names then
    some (p.names.take (p.names.length - folder.names.length)).reverse
  else none

/-- The path of a place in the working folder. -/
def path? (p : Place) : Option String :=
  if p.rooted ∨ p.names.contains ".." then none else some (String.intercalate "/" p.names.reverse)

end Place

/-- The files that are there, and folders besides those of the files. -/
structure FileTree where
  files : List StoredFile
  folders : List String := []

namespace FileTree

/-- The root, the working folder and those around it are folders, and so is each place
that something is in. -/
def hasFolder (t : FileTree) (p : Place) : Bool :=
  p.names.all (· = "..") || t.folders.any (fun d => ((Place.ofPath d).within? p).isSome) ||
    t.files.any fun f => ((Place.ofPath f.path).within? p).any fun names => !names.isEmpty

/-- Where a path leads. -/
def follow? (t : FileTree) (path : String) : Option Place :=
  if path.isEmpty then none
  else (path.splitOn "/").foldlM (fun p name => if t.hasFolder p then some (p.step name) else none)
    (Place.start path)

/-- The paths of the folders that a path leads through. -/
def foldersOn (path : String) : List String :=
  let names := path.splitOn "/"
  ((List.range names.length).map fun n => String.intercalate "/" (names.take n)).filter (· ≠ "")

/-- The content of a file. -/
def find? (t : FileTree) (path : String) : Option ByteArray := do
  let p ← t.follow? path
  (t.files.find? fun f => Place.ofPath f.path = p).map (·.content)

end FileTree

end Adventure
