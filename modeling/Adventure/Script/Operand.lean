import Adventure.Game.Tables

/-! Scripts, and reading their operands. An operand moves the place in the script; the
game stays as it is. -/

namespace Adventure

/-- The bytes of a script and the place in them. -/
structure Script where
  data : ByteArray
  offset : Nat := 0

/-- A step that reads from a script. -/
abbrev Operand := StateT Script (Except GameError)

/-- The object that an operand names. -/
inductive ObjectRef where
  | nobody
  /-- The object that runs the script. -/
  | self
  | named (i : Nat)
  deriving DecidableEq, Repr

namespace ObjectRef

/-- The slot of the object, given the one that runs the script. -/
def slot? (current : Nat) : ObjectRef → Option Nat
  | nobody => none
  | self => some current
  | named i => some i

/-- The slot of an object that is called by its name. -/
def named? : ObjectRef → Option Nat
  | named i => some i
  | _ => none

end ObjectRef

namespace Operand

def word : Operand Int16 := fun s =>
  match Bytes.le16s? s.data s.offset with
  | some w => .ok (w, { s with offset := s.offset + 2 })
  | none => .error (.scriptEnd s.offset)

def int : Operand Int := do return (← word).toInt

def offset : Operand Nat := do return (← get).offset

def skip (n : Nat) : Operand Unit := modify fun s => { s with offset := s.offset + n }

def jump (offset : Nat) : Operand Unit := modify fun s => { s with offset }

/-- A string with its length in front and a zero byte at its end. -/
def string : Operand String := do
  let start ← offset
  let length ← int
  if length < 1 then throw (.scriptString start)
  let s ← get
  let stop := s.offset + length.toNat
  if s.data.size < stop then throw (.scriptEnd s.offset)
  if Bytes.at0 s.data (stop - 1) ≠ 0 then throw (.scriptString start)
  jump stop
  return Text.ofField (s.data.extract s.offset stop)

/-- The bytes from a place up to a zero byte or the end; the last argument bounds their number. -/
def bytesFrom (data : ByteArray) (i : Nat) : Nat → List UInt8
  | 0 => []
  | n + 1 => if Bytes.at0 data i = 0 then [] else Bytes.at0 data i :: bytesFrom data (i + 1) n

/-- The name that starts at a place. -/
def nameAt (data : ByteArray) (i : Nat) : String :=
  String.ofList (Text.Utf8.decode (bytesFrom data i (data.size - i)))

/-- An object: nobody, the object that runs the script, or one with the given name. The
name ends at its zero byte, the operand where its length says. -/
def object (t : SceneTables) : Operand ObjectRef := do
  let start ← offset
  let length ← int
  if length = -1 then return .nobody
  if length = 0 then return .self
  if length < 0 then throw (.scriptString start)
  let s ← get
  skip length.toNat
  return match t.findObject? (nameAt s.data s.offset) with
    | some i => .named i
    | none => .nobody

/-- Gives a fault when the divisor is zero. -/
def div (a b : Int) : Operand Int := do
  if b = 0 then throw (.divisionByZero (← offset))
  return a.tdiv b

def rem (a b : Int) : Operand Int := do
  if b = 0 then throw (.divisionByZero (← offset))
  return a.tmod b

/-- What becomes of a value by an arithmetic code and an argument. -/
def arithmetic (start : Nat) (code value argument : Int16) : Except GameError Int16 :=
  match code.toInt with
  | 0 => .ok argument
  | 1 => .ok (value + argument)
  | 2 => .ok (value - argument)
  | 3 => .ok (value * argument)
  | 4 => if argument = 0 then .error (.divisionByZero start) else .ok (value / argument)
  | _ => .error (.arithmetic code)

/-- The new value of something. -/
def change (value : Int16) : Operand Int16 := do
  let start ← offset
  let code ← word
  let argument ← word
  arithmetic start code value argument

/-- How an argument stands to a value. -/
def comparison (code value argument : Int16) : Except GameError Bool :=
  match code.toInt with
  | 0 => .ok (argument = value)
  | 1 => .ok (argument ≠ value)
  | 2 => .ok (argument > value)
  | 3 => .ok (argument < value)
  | 4 => .ok (argument ≥ value)
  | 5 => .ok (argument ≤ value)
  | _ => .error (.arithmetic code)

/-- A value lies in one of the next `n` ranges, all of which are read. -/
def inRanges (value : Int16) : Nat → Operand Bool
  | 0 => return false
  | n + 1 => do
    let low ← word
    let high ← word
    let rest ← inRanges value n
    return (low ≤ value ∧ value ≤ high) ∨ rest

/-- A test of a value: a comparison, or a list of ranges behind the code -1. -/
def test (value : Int16) : Operand Bool := do
  let code ← word
  if code = -1 then
    let n ← int
    inRanges value n.toNat
  else
    let argument ← word
    comparison code value argument

/-- A fraction of a size, plus a number. -/
def scaled (size : Int) : Operand Int16 := do
  let a ← int
  let b ← int
  let c ← int
  return ((← div (a * size) b) + c).toInt16

/-- Two fractions of a size, the lesser one first. -/
def scaledPair (size : Int) : Operand (Int16 × Int16) := do
  let a ← scaled size
  let b ← scaled size
  return if b < a then (b, a) else (a, b)

/-- An index into a table of the given size. -/
def index (t : Table) (size : Nat) : Operand (Fin size) := do
  t.check size (← int)

end Operand

end Adventure
