import Adventure.Text.Numeral

/-! Words of a scene or dialogue text. The state of a tokenizer is the text that
is still to be read, or nothing once the text has run out. -/

namespace Adventure

/-- Why a word is not what was asked for. -/
inductive TokenError where
  | integer (word : String)
  | arrayIndex (word : String)
  | coord (line : String)
  deriving DecidableEq, Repr

def TokenError.message : TokenError → String
  | .integer w => s!"Parse error for integer '{w}'"
  | .arrayIndex w => s!"Parse error for array index '{w}'"
  | .coord l => s!"Parse error for coord '{l}'"

/-- The text still to be read; `none` once it has run out. -/
structure Tokenizer where
  rest : Option (List Char)

namespace Tokenizer

open Text

def ofText (s : List Char) : Tokenizer := ⟨some s⟩

def isExhausted (t : Tokenizer) : Bool := t.rest.isNone

/-- The tokenizer behind the delimiter that opens `r`, exhausted without one. -/
def afterDelimiter : List Char → Tokenizer
  | [] => ⟨none⟩
  | _ :: r => ⟨some r⟩

/-- The next word: up to a blank, or between double quotes. -/
def word? (t : Tokenizer) : Option String × Tokenizer :=
  match t.rest with
  | none => (none, t)
  | some s =>
    match s.dropWhile isBlank with
    | [] => (none, ⟨none⟩)
    | '"' :: r => (some (String.ofList (r.takeWhile (· ≠ '"'))), afterDelimiter (r.dropWhile (· ≠ '"')))
    | r => (some (String.ofList (r.takeWhile fun c => !isBlank c)),
        afterDelimiter (r.dropWhile fun c => !isBlank c))

/-- A line without the carriage return before its line feed. -/
def chomp (line : List Char) : List Char :=
  if line.getLast? = some '\r' then line.dropLast else line

/-- The rest of the line, blanks before it skipped. -/
def line? (t : Tokenizer) : Option String × Tokenizer :=
  match t.rest with
  | none => (none, t)
  | some s =>
    let r := s.dropWhile isBlank
    match r.dropWhile (· ≠ '\n') with
    | [] => (some (String.ofList r), ⟨none⟩)
    | _ :: after => (some (String.ofList (chomp (r.takeWhile (· ≠ '\n')))), ⟨some after⟩)

/-- A word that is a number. -/
def int (t : Tokenizer) : Except TokenError Int × Tokenizer :=
  let (w, t) := t.word?
  let w := w.getD ""
  (match readInt? w.toList with
    | some v => .ok v
    | none => .error (.integer w), t)

/-- A word `[n]`, counted from zero. The closing bracket is not looked at. -/
def arrayIndex (t : Tokenizer) : Except TokenError Int × Tokenizer :=
  let (w, t) := t.word?
  let w := w.getD ""
  (match w.toList with
    | '[' :: r =>
      match readInt? r with
      | some v => .ok (Word.pred v)
      | none => .error (.arrayIndex w)
    | _ => .error (.arrayIndex w), t)

/-- The text behind the first `d`. -/
def behind (d : Char) (s : List Char) : Option (List Char) :=
  match s.dropWhile (· ≠ d) with
  | [] => none
  | _ :: r => some r

/-- The two numbers of a pair `(x,y)` and the text behind it. -/
def readCoord (s : List Char) : Option (Int × Int × List Char) := do
  let inner ← match s with
    | '(' :: r => some r
    | _ => none
  let (x, _) ← readLong inner
  let second ← behind ',' inner
  let (y, _) ← readLong second
  let after ← behind ')' second
  pure (x, y, after)

/-- A pair `(x,y)`, each number cut to 16 bits. -/
def coord (t : Tokenizer) : Except TokenError (Int16 × Int16) × Tokenizer :=
  let s := (t.rest.getD []).dropWhile isBlank
  match readCoord s with
  | some (x, y, after) => (.ok (x.toInt16, y.toInt16), ⟨some after⟩)
  | none =>
    let line := s.takeWhile (· ≠ '\n')
    let line := if (s.dropWhile (· ≠ '\n')).isEmpty then line else chomp line
    (.error (.coord (String.ofList line)), ⟨t.rest.map fun _ => s⟩)

end Tokenizer

end Adventure
