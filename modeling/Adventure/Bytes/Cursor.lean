import Adventure.Text.Encoding

/-! A reading position in a byte buffer. Reads are steps of a monad that keeps
the position also when a read fails, so that a caller can see how far it got. -/

namespace Adventure

/-- A read that runs past the end of the data. -/
structure ReadError where
  offset : Nat
  wanted : Nat
  available : Nat
  deriving DecidableEq, Repr

def ReadError.message (e : ReadError) : String :=
  s!"Unexpected end of data at offset {e.offset} (wanted {e.wanted} bytes, {e.available} available)"

/-- Errors that can report a short read. -/
class OfReadError (ε : Type) where
  ofReadError : ReadError → ε

instance : OfReadError ReadError := ⟨id⟩

/-- A buffer and a position, which may lie beyond the end. -/
structure Cursor where
  data : ByteArray
  pos : Nat := 0

/-- A reader with errors of type `ε`. -/
abbrev ReadM (ε : Type) := EStateM ε Cursor

namespace Cursor

def remaining (c : Cursor) : Nat := c.data.size - c.pos

variable {ε : Type} [OfReadError ε]

/-- The next `n` bytes. -/
def bytes (n : Nat) : ReadM ε ByteArray := fun c =>
  if c.remaining < n then .error (OfReadError.ofReadError ⟨c.pos, n, c.remaining⟩) c
  else .ok (c.data.extract c.pos (c.pos + n)) { c with pos := c.pos + n }

def skip (n : Nat) : ReadM ε Unit := do discard (bytes n)

def seek (pos : Nat) : ReadM ε Unit := modify fun c => { c with pos }

def u8 : ReadM ε UInt8 := do return Bytes.at0 (← bytes 1) 0

def u16 : ReadM ε UInt16 := do
  let b ← bytes 2
  return (Bytes.at0 b 0).toUInt16 ||| ((Bytes.at0 b 1).toUInt16 <<< 8)

def i16 : ReadM ε Int16 := do return (← u16).toInt16

def u32 : ReadM ε UInt32 := do
  let b ← bytes 4
  return (Bytes.at0 b 0).toUInt32 ||| ((Bytes.at0 b 1).toUInt32 <<< 8)
    ||| ((Bytes.at0 b 2).toUInt32 <<< 16) ||| ((Bytes.at0 b 3).toUInt32 <<< 24)

/-- Repeats a step on a value until one gives the result. -/
def loopFrom {σ ρ : Type} (step : σ → ReadM ε (σ ⊕ ρ)) : Nat → σ → ReadM ε ρ
  | 0, _ => fun c => .error (OfReadError.ofReadError ⟨c.pos, 1, c.remaining⟩) c
  | fuel + 1, s => do
    match ← step s with
    | .inl s => loopFrom step fuel s
    | .inr r => return r

/-- Repeats a step that takes at least one byte, until one gives the result. There
are no more steps than there are bytes left. -/
def loop {σ ρ : Type} (step : σ → ReadM ε (σ ⊕ ρ)) (s : σ) : ReadM ε ρ := do
  loopFrom step ((← get).remaining + 1) s

/-- The items up to the mark that ends them. -/
def items {α : Type} (item : ReadM ε (Option α)) : ReadM ε (List α) := do
  let l ← loop (fun (acc : List α) => do
    match ← item with
    | some a => return .inl (a :: acc)
    | none => return .inr acc) []
  return l.reverse

/-- Exactly `n` items. -/
def times {α : Type} (item : ReadM ε α) : Nat → ReadM ε (List α)
  | 0 => return []
  | n + 1 => do
    let a ← item
    return a :: (← times item n)

/-- Reads a buffer from its start. -/
def run {α : Type} (m : ReadM ε α) (data : ByteArray) : Except ε α :=
  match m ⟨data, 0⟩ with
  | .ok a _ => .ok a
  | .error e _ => .error e

/-- A text with its length in a word before it. -/
def string16 : ReadM ε String := do
  let n ← u16
  return Text.ofField (← bytes n.toNat)

end Cursor

end Adventure
