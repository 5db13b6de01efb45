import Adventure.Text.Tokenizer

/-! Dialogues. Entries with one name are offered together; the chosen one is spoken
and then leads to another name or ends the dialogue with a number. -/

namespace Adventure

/-- One line that can be said. -/
structure DialogueEntry where
  id : String
  /-- Goes on with the entries of `next`; otherwise `next` is the number of an ending. -/
  goes : Bool
  next : String
  speech : String
  text : String
  deriving DecidableEq, Repr, Inhabited

inductive DialogueError where
  | keyword (word : String)
  | tooManyEntries
  deriving DecidableEq, Repr

def DialogueError.message : DialogueError → String
  | .keyword w => s!"Unexpected dialogue keyword '{w}'"
  | .tooManyEntries => "Too many dialogue entries"

/-- What follows from a step of a dialogue. -/
inductive DialogueEvent where
  | nothing
  | speak (file : String)
  | silence
  /-- Nothing is left to say. -/
  | leave
  | ended (n : Int)
  | kiss
  deriving DecidableEq, Repr

def maxEntries : Nat := 40

def maxChoices : Nat := 10

/-- The number of the ending that shows a kiss. -/
def kissEnding : Int := 100

namespace Dialogue

/-- White space at the end of a text. -/
def isSpace (c : Char) : Bool :=
  let n := c.toNat
  (9 ≤ n ∧ n ≤ 13) ∨ n = 0x20 ∨ n = 0x85 ∨ n = 0xA0 ∨ n = 0x1680 ∨ (0x2000 ≤ n ∧ n ≤ 0x200A) ∨
    n = 0x2028 ∨ n = 0x2029 ∨ n = 0x202F ∨ n = 0x205F ∨ n = 0x3000

def trimEnd (s : String) : String := String.ofList (s.toList.reverse.dropWhile isSpace).reverse

/-- The rest of an entry behind its name. -/
def parseEntry (id : String) (t : Tokenizer) : Except DialogueError (DialogueEntry × Tokenizer) :=
  let (verb, t) := t.word?
  match (match verb.getD "" with
    | "Goto" => some true
    | "End" => some false
    | _ => none) with
  | none => .error (.keyword (verb.getD ""))
  | some goes =>
    let (next, t) := t.word?
    let (speech, t) := t.word?
    let (arrow, t) := t.word?
    if arrow.getD "" = "->" then
      let (text, t) := t.line?
      .ok (⟨id, goes, next.getD "", speech.getD "", trimEnd (text.getD "")⟩, t)
    else .error (.keyword (arrow.getD ""))

/-- The entries of a text; `n` more are allowed. A name at the very end opens no entry. -/
def parseFrom : Nat → Tokenizer → Except DialogueError (List DialogueEntry)
  | n, t =>
    let (id, t) := t.word?
    match id with
    | none => .ok []
    | some id =>
      if t.isExhausted then .ok []
      else
        match n with
        | 0 => .error .tooManyEntries
        | n + 1 =>
          match parseEntry id t with
          | .error e => .error e
          | .ok (entry, t) =>
            match parseFrom n t with
            | .error e => .error e
            | .ok l => .ok (entry :: l)

def parse (text : List Char) : Except DialogueError (List DialogueEntry) :=
  parseFrom maxEntries (Tokenizer.ofText text)

end Dialogue

/-- The speakers of a dialogue. -/
inductive Speaker where
  | jack | other | kiss
  deriving DecidableEq, Repr, Inhabited

/-- A dialogue and what is offered in it. -/
structure Dialogue where
  entries : List DialogueEntry
  choices : List DialogueEntry := []
  index : Nat := 0
  selected : Bool := false
  speaker : Speaker := .jack
  deriving DecidableEq, Repr, Inhabited

namespace Dialogue

def ofEntries (entries : List DialogueEntry) : Dialogue := { entries }

def current? (d : Dialogue) : Option DialogueEntry := d.choices[d.index]?

/-- What speaking the current choice asks for. -/
def speech (d : Dialogue) : DialogueEvent :=
  match d.current? with
  | some c => .speak c.speech
  | none => .nothing

/-- Jack's entries start with his initial. -/
def speakerOf (id : String) : Speaker :=
  match id.toList with
  | 'J' :: _ => .jack
  | 'j' :: _ => .jack
  | _ => .other

/-- Offers the entries of a name. A single one is spoken right away. -/
def setup (d : Dialogue) (id : String) : DialogueEvent × Dialogue :=
  let choices := (d.entries.filter fun e => e.id = id).take maxChoices
  let d := { d with choices, index := 0, speaker := speakerOf id }
  match choices with
  | [_] =>
    let d := { d with selected := true }
    (d.speech, d)
  | _ => (.nothing, d)

def moveDown (d : Dialogue) : Dialogue :=
  if !d.selected ∧ d.index + 1 < d.choices.length then { d with index := d.index + 1 } else d

def moveUp (d : Dialogue) : Dialogue :=
  if !d.selected ∧ 0 < d.index then { d with index := d.index - 1 } else d

/-- Speaks the current choice, or silences it. -/
def confirm (d : Dialogue) : DialogueEvent × Dialogue :=
  if 1 < d.choices.length ∧ !d.selected then
    let d := { d with selected := true }
    (d.speech, d)
  else (.silence, d)

/-- Follows the selected choice once it has been spoken. -/
def speechFinished (d : Dialogue) : DialogueEvent × Dialogue :=
  if !d.selected then (.nothing, d)
  else
    let d := { d with selected := false }
    match d.current? with
    | none => (.leave, d)
    | some c =>
      if c.goes then
        let (event, d) := d.setup c.next
        if d.choices.isEmpty then (.leave, d) else (event, d)
      else
        let n := Text.leadingDecimal c.next.toList
        if n = kissEnding then (.kiss, { d with speaker := .kiss }) else (.ended n, d)

end Dialogue

end Adventure
