import Adventure.Cli.Execute

/-! The program: it loads what its arguments name, and prints and writes what comes of it. -/

namespace Adventure.Cli

def usage : String :=
  String.intercalate "\n"
    [ "Usage: adventure [OPTIONS] <COMMAND>",
      "",
      "Commands:",
      "  scan                     List the files of the data directory",
      "  decode <INPUT> <OUTPUT>  Decompress a resource [--codec lzss|zlib]",
      "  wgp <INPUT>              Describe a background, optionally converting it [--tga <FILE>]",
      "  spr <INPUT>              Describe a sprite bank",
      "  mov <INPUT>              Describe an animation",
      "  scn <NAME>               Load a scene and list its objects",
      "  dlg <INPUT>              Parse a dialogue script [--id <ID>]",
      "  save <INPUT>             Describe a saved game",
      "  avi <INPUT>              Describe a cutscene",
      "  run                      Run the game [-f <FRAMES>] [--skip-intro] [--seed <SEED>] [-p <PAYLOAD>]",
      "",
      "Options:",
      "  -c, --config <FILE>      Engine configuration",
      "  -d, --data <FOLDER>      Data directory",
      "      --log-profile <NAME> development, production or test",
      "" ]

/-- A file, if it can be read. -/
def load (path : String) : IO (List StoredFile) := do
  try return [⟨path, ← IO.FS.readBinFile path⟩] catch _ => return []

/-- All files below a folder. -/
partial def loadBelow (folder : String) : IO (List StoredFile) := do
  let entries ← try (← IO.FS.realPath folder).readDir catch _ => pure #[]
  let lists ← entries.toList.mapM fun e => do
    let path := Settings.joinPath folder e.fileName
    if ← e.path.isDir then loadBelow path else load path
  return lists.flatten

/-- The folders that a path leads through, as far as they are there. -/
def loadWay (path : String) : IO (List String) :=
  (FileTree.foldersOn path).filterM fun folder => do
    try
      discard (← IO.FS.realPath folder).readDir
      return true
    catch _ => return false

/-- What the arguments name. -/
def loadTree (a : Arguments) : IO FileTree := do
  let config ← a.config.toList.mapM load
  let (inputs, outputs) := a.command.paths
  let named ← inputs.mapM load
  let ways ← (a.config.toList ++ inputs ++ outputs).mapM loadWay
  let t : FileTree := { files := (config ++ named).flatten, folders := ways.flatten }
  match settingsOf? a t with
  | none => return t
  | some s =>
    if a.command.usesData then
      let way ← loadWay (Settings.joinPath s.dataPath ".")
      return { files := t.files ++ (← loadBelow s.dataPath), folders := t.folders ++ way }
    else return t

def printOutcome (o : Outcome) : IO Unit := do
  match o.output with
  | some v => IO.println (if o.exitCode = 0 then v.pretty else v.canonical)
  | none =>
    if o.exitCode = 0 then IO.print usage
    else IO.eprint (if o.exitCode = 1 then "error: the configuration cannot be loaded\n" else usage)

def perform (words : List String) : IO UInt32 := do
  let t ← match Arguments.read words with
    | .ok a => loadTree a
    | .error _ => pure { files := [] }
  let o := outcome words t (← IO.monoMsNow).toUInt16
  for f in o.written do
    IO.FS.writeBinFile f.path f.content
  printOutcome o
  return o.exitCode.toUInt32

end Adventure.Cli

def main (words : List String) : IO UInt32 := Adventure.Cli.perform words
