import Adventure.Resource.SpriteBank
import Adventure.Settings

/-! The arguments of the command line: flags, then a command with flags and places of
its own. Flags may be written with their value in one word or in two. -/

namespace Adventure.Cli

/-- What is to be done. -/
inductive Command where
  | scan
  | decode (codec : Packing) (input output : String)
  | background (input : String) (image : Option String)
  | sprites (input : String)
  | movie (input : String)
  | scene (name : String)
  | dialogue (input : String) (id : Option String)
  | save (input : String)
  | video (input : String)
  | run (frames : Nat) (skipIntro : Bool) (seed : Option UInt16) (payload : Option String)
  deriving DecidableEq, Repr

/-- The arguments as a whole. -/
structure Arguments where
  config : Option String
  data : Option String
  profile : Option LogProfile
  command : Command
  deriving DecidableEq, Repr

/-- Why nothing is to be done: help is asked for, or the arguments are wrong. -/
inductive Usage where
  | help | wrong
  deriving DecidableEq, Repr

/-! Values -/

def path? (s : String) : Option String := if s.isEmpty then none else some s

def codec? : String → Option Packing
  | "lzss" => some .blocks
  | "zlib" => some .stream
  | _ => none

/-- A number of decimal digits. -/
def digits? (l : List Char) : Option Nat :=
  if l.isEmpty ∨ l.any fun c => ¬('0' ≤ c ∧ c ≤ '9') then none
  else some (l.foldl (fun n c => n * 10 + (c.toNat - 48)) 0)

/-- A number of 64 bits without a sign, which may have a plus in front. -/
def count? (s : String) : Option Nat := do
  let n ← match s.toList with
    | '+' :: r => digits? r
    | l => digits? l
  if n < UInt64.size then some n else none

/-- A number of 16 bits. Zero may have a minus in front. -/
def seed? (s : String) : Option UInt16 := do
  let n ← match s.toList with
    | '+' :: r => digits? r
    | '-' :: r => (digits? r).filter (· = 0)
    | l => digits? l
  if n < 65536 then some n.toUInt16 else none

/-! Grammars -/

/-- A flag, and which values it takes, if it takes one. -/
structure Flag where
  long : String
  short : Option Char := none
  accepts : Option (String → Bool)

/-- What can stand behind a program or command: flags, places for words, and the names of
commands that go on by themselves. -/
structure Grammar where
  flags : List Flag
  places : List (String × (String → Bool)) := []
  commands : List String := []

def isPath (s : String) : Bool := (path? s).isSome

def input : String × (String → Bool) := ("input", isPath)

def mainGrammar : Grammar where
  flags := [⟨"config", some 'c', some isPath⟩, ⟨"data", some 'd', some isPath⟩,
    ⟨"log-profile", none, some fun s => (LogProfile.ofName? s).isSome⟩]
  commands := ["scan", "decode", "wgp", "spr", "mov", "scn", "dlg", "save", "avi", "run", "help"]

def anyText : String → Bool := fun _ => true

/-- What can stand behind a command. -/
def grammarOf : String → Grammar
  | "decode" => ⟨[⟨"codec", none, some fun s => (codec? s).isSome⟩], [input, ("output", isPath)], []⟩
  | "wgp" => ⟨[⟨"tga", none, some isPath⟩], [input], []⟩
  | "scn" => ⟨[], [("name", anyText)], []⟩
  | "dlg" => ⟨[⟨"id", none, some anyText⟩], [input], []⟩
  | "run" => ⟨[⟨"frames", some 'f', some fun s => (count? s).isSome⟩, ⟨"skip-intro", none, none⟩,
      ⟨"seed", none, some fun s => (seed? s).isSome⟩, ⟨"payload", some 'p', some anyText⟩], [], []⟩
  | "scan" => ⟨[], [], []⟩
  | _ => ⟨[], [input], []⟩

/-! Reading -/

/-- What has been read: the values by their names, the places that are still free, and
whether the last value is one that its flag or place does not take. Such a value is only
looked at when the next word that is no command has been read. -/
structure Reading where
  values : List (String × String) := []
  free : List (String × (String → Bool))
  faulty : Bool := false

namespace Reading

def settle (s : Reading) : Except Usage Reading := if s.faulty then .error .wrong else .ok s

/-- Adds the value of a flag, which may be given once. -/
def add (s : Reading) (f : Flag) (value : String) (accepts : String → Bool) : Reading :=
  { s with
    values := (f.long, value) :: s.values
    faulty := !accepts value || s.values.any fun v => v.1 = f.long }

/-- Puts a word into the next place. -/
def place (s : Reading) (word : String) : Except Usage Reading := do
  let s ← s.settle
  match s.free with
  | [] => throw .wrong
  | (name, accepts) :: free => return { values := (name, word) :: s.values, free, faulty := !accepts word }

end Reading

/-- A word that starts like a flag. A single dash does not. -/
def startsFlag (word : String) : Bool := word.startsWith "-" && word ≠ "-"

/-- The parts of a flag word: the flag's long or short name, and what is attached to it. -/
def flagParts (word : String) : (String ⊕ Char) × Option String :=
  match word.toList with
  | '-' :: '-' :: r =>
    match r.span (· ≠ '=') with
    | (name, []) => (.inl (String.ofList name), none)
    | (name, _ :: value) => (.inl (String.ofList name), some (String.ofList value))
  | _ :: c :: [] => (.inr c, none)
  | _ :: c :: '=' :: r => (.inr c, some (String.ofList r))
  | _ :: c :: r => (.inr c, some (String.ofList r))
  | _ => (.inl "", none)

def isHelp (name : String ⊕ Char) : Bool := name = .inl "help" ∨ name = .inr 'h'

def findFlag? (g : Grammar) : String ⊕ Char → Option Flag
  | .inl long => g.flags.find? fun f => f.long = long
  | .inr c => g.flags.find? fun f => f.short = some c

/-- Reads words up to their end or to a command. -/
def readWords (g : Grammar) : Reading → List String → Except Usage (Reading × List String)
  | s, [] => do return (← s.settle, [])
  | s, word :: r =>
    if g.commands.contains word then .ok (s, word :: r)
    else if word = "--" then do return (← r.foldlM Reading.place s >>= Reading.settle, [])
    else if startsFlag word then do
      let (name, attached) := flagParts word
      let s ← s.settle
      if isHelp name then
        throw (if attached.isSome ∧ name = .inl "help" then .wrong else .help)
      match findFlag? g name with
      | none => throw .wrong
      | some f =>
        match f.accepts, attached, r with
        | none, none, r => readWords g (← (s.add f "" anyText).settle) r
        | none, some _, _ => throw .wrong
        | some accepts, some value, r => readWords g (← (s.add f value accepts).settle) r
        | some _, none, [] => throw .wrong
        | some accepts, none, value :: r =>
          if startsFlag value then throw .wrong else readWords g (s.add f value accepts) r
    else do readWords g (← s.place word) r

def value? (s : Reading) (name : String) : Option String := (s.values.find? fun v => v.1 = name).map (·.2)

/-- The command of a name, from what was read behind it. -/
def commandOf? (name : String) (s : Reading) : Option Command := do
  let v := value? s
  match name with
  | "scan" => return .scan
  | "decode" => return .decode ((v "codec" >>= codec?).getD .blocks) (← v "input") (← v "output")
  | "wgp" => return .background (← v "input") (v "tga")
  | "spr" => return .sprites (← v "input")
  | "mov" => return .movie (← v "input")
  | "scn" => return .scene (← v "name")
  | "dlg" => return .dialogue (← v "input") (v "id")
  | "save" => return .save (← v "input")
  | "avi" => return .video (← v "input")
  | "run" =>
    return .run ((v "frames" >>= count?).getD 100) (v "skip-intro").isSome (v "seed" >>= seed?) (v "payload")
  | _ => none

/-- What help on commands comes to: it is there for one command at most. -/
def helpOn (names : List String) : Usage :=
  match names with
  | [] => .help
  | [name] => if mainGrammar.commands.contains name then .help else .wrong
  | _ => .wrong

def readCommand (name : String) (words : List String) : Except Usage Command := do
  if name = "help" then throw (helpOn words)
  let g := grammarOf name
  let (s, _) ← readWords g { free := g.places } words
  match commandOf? name s with
  | some c => return c
  | none => throw .wrong

/-- The arguments from their words. Behind a command's name the command decides first. -/
def Arguments.read (words : List String) : Except Usage Arguments := do
  match ← readWords mainGrammar { free := [] } words with
  | (s, name :: rest) =>
    let command ← readCommand name rest
    let s ← s.settle
    let v := value? s
    return { config := v "config", data := v "data", profile := v "log-profile" >>= LogProfile.ofName?, command }
  | (_, []) => throw .wrong

end Adventure.Cli
