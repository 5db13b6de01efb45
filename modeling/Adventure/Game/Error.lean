import Adventure.DataDir
import Adventure.Resource.Error
import Adventure.Save.State
import Adventure.Scene.Host
import Adventure.Dialogue
import Adventure.Video.Error

/-! What can stop a game. -/

namespace Adventure

/-- The tables that hold a game, as they are named in messages. -/
inductive Table where
  | animations | motions | frames | sounds | objects | objectVars | vars | boxes | statuses | keys | bag
  deriving DecidableEq, Repr

def Table.name : Table → String
  | .animations => "animations"
  | .motions => "motions"
  | .frames => "frames"
  | .sounds => "sounds"
  | .objects => "objects"
  | .objectVars => "object vars"
  | .vars => "vars"
  | .boxes => "boxes"
  | .statuses => "statuses"
  | .keys => "keys"
  | .bag => "bag"

inductive GameError where
  | noStartScene
  | emptyScene
  | condition (code : Int16)
  | operator (code : Int16)
  | arithmetic (code : Int16)
  | scriptEnd (offset : Nat)
  | scriptString (offset : Nat)
  | statementEnd (offset stop : Nat)
  | divisionByZero (offset : Nat)
  | index (table : Table) (i : Int)
  | full (table : Table)
  | write (path : String)
  | resource (e : ResourceError)
  | codec (e : CodecError)
  | data (e : DataError)
  | scene (e : SceneError)
  | dialogue (e : DialogueError)
  | save (e : SaveError)
  | video (e : VideoError)
  deriving DecidableEq, Repr

def GameError.message : GameError → String
  | .noStartScene => "Unable to find startup scene file"
  | .emptyScene => "Scene has no objects"
  | .condition c => s!"Invalid condition {c.toInt}"
  | .operator c => s!"Invalid operator {c.toInt}"
  | .arithmetic c => s!"Invalid expression operator {c.toInt}"
  | .scriptEnd i => s!"Script truncated at offset {i}"
  | .scriptString i => s!"Invalid script string at offset {i}"
  | .statementEnd i stop => s!"Statement at offset {i} ends at {stop}"
  | .divisionByZero i => s!"Division by zero in script at offset {i}"
  | .index t i => s!"Index {i} out of range for {t.name}"
  | .full t => s!"Table {t.name} is full"
  | .write path => s!"Failed to write {path}: No such file or directory (os error 2)"
  | .resource e => e.message
  | .codec e => e.message
  | .data e => e.message
  | .scene e => e.message
  | .dialogue e => e.message
  | .save e => e.message
  | .video e => e.message

namespace GameError

/-- The outcome of a part of the game, with its fault as one of the game. -/
def wrap {ε α : Type} (f : ε → GameError) : Except ε α → Except GameError α
  | .ok a => .ok a
  | .error e => .error (f e)

end GameError

/-- An index into a table of the given size. -/
def Table.check (t : Table) (size : Nat) (i : Int) : Except GameError (Fin size) :=
  if h : 0 ≤ i ∧ i.toNat < size then .ok ⟨i.toNat, h.2⟩ else .error (.index t i)

end Adventure
