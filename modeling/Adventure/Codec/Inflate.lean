import Adventure.Bytes.Basic

/-! The deflate format and its zlib frame. A stream is a sequence of blocks, stored
or coded with two canonical prefix codes, one for bytes and copy lengths and one
for copy distances; the frame adds a header of two bytes and a checksum. -/

namespace Adventure.Inflate

/-- Why decoding stops early: the data ends, or it is no valid stream. -/
inductive Stop where
  | short | invalid
  deriving DecidableEq, Repr

/-- The position in bits, the output, and how much output there was when the current
part of the data came in. -/
structure State where
  pos : Nat := 0
  out : ByteArray := ByteArray.empty
  before : Nat := 0

/-- Data comes in, and output is handed on, in parts of this size. -/
def partSize : Nat := 0x8000

/-- How much of the output is handed on when a fault stops the stream. Output is handed
on when a part of it is full and more follows, and when a part of the data is used up. -/
def State.handedOn (s : State) : Nat := max s.before ((s.out.size - 1) / partSize * partSize)

/-- A decoding step on `data`. The output is kept when it stops. -/
abbrev M := EStateM Stop State

/-- One bit, the lowest of a byte first. -/
def bit (data : ByteArray) : M Nat := fun s =>
  if h : s.pos / 8 < data.size then
    .ok ((data[s.pos / 8] >>> (s.pos % 8).toUInt8) &&& 1).toNat
      { s with pos := s.pos + 1, before := if s.pos % (8 * partSize) = 0 then s.out.size else s.before }
  else .error .short s

/-- A number of `n` bits, the lowest first. -/
def bits (data : ByteArray) : Nat → M Nat
  | 0 => pure 0
  | n + 1 => do
    let b ← bit data
    let r ← bits data n
    return b + 2 * r

/-- Skips to the next byte border. -/
def align : M Unit := modify fun s => { s with pos := (s.pos + 7) / 8 * 8 }

def emit (b : UInt8) : M Unit := modify fun s => { s with out := s.out.push b }

/-- A canonical prefix code: how many codes there are of each length from one up to the
longest, and the symbols in the order of their codes. -/
structure Code where
  counts : List Nat
  symbols : Array Nat

def maxLength : Nat := 15

/-- The share of the code space, in units of the longest codes. -/
def weight (lengths : List Nat) : Nat :=
  lengths.foldr (fun l n => (if l = 0 then 0 else 1 <<< (maxLength - l)) + n) 0

/-- The code with the given length for each symbol. The code space must be used up
exactly; a code that may be `sparse` can also have a single symbol of one bit, or none. -/
def Code.ofLengths (sparse : Bool) (lengths : List Nat) : M Code :=
  let used := lengths.zipIdx.filter fun p => p.1 ≠ 0
  let longest := lengths.foldr max 1
  if weight lengths ≠ 1 <<< maxLength ∧ ¬(sparse ∧ used.length ≤ 1 ∧ longest = 1) then throw .invalid
  else
    let sizes := (List.range longest).map (· + 1)
    pure ⟨sizes.map fun n => (used.filter fun p => p.1 = n).length,
      (sizes.flatMap fun n => (used.filter fun p => p.1 = n).map (·.2)).toArray⟩

/-- Reads one symbol bit by bit: `code` is what was read, `first` the first code of
this length and `index` the place of its symbol. -/
def symbolFrom (data : ByteArray) (symbols : Array Nat) (code first index : Nat) : List Nat → M Nat
  | [] => throw .invalid
  | count :: counts => do
    let code := 2 * code + (← bit data)
    if code < first + count then
      match symbols[index + (code - first)]? with
      | some s => pure s
      | none => throw .invalid
    else symbolFrom data symbols code (2 * (first + count)) (index + count) counts

def symbol (data : ByteArray) (c : Code) : M Nat := symbolFrom data c.symbols 0 0 0 c.counts

/-- The least copy length of each length symbol, and its number of extra bits. -/
def lengthTable : Array (Nat × Nat) := #[
  (3, 0), (4, 0), (5, 0), (6, 0), (7, 0), (8, 0), (9, 0), (10, 0), (11, 1), (13, 1), (15, 1), (17, 1),
  (19, 2), (23, 2), (27, 2), (31, 2), (35, 3), (43, 3), (51, 3), (59, 3), (67, 4), (83, 4), (99, 4),
  (115, 4), (131, 5), (163, 5), (195, 5), (227, 5), (258, 0)]

/-- The least copy distance of each distance symbol, and its number of extra bits. -/
def distanceTable : Array (Nat × Nat) := #[
  (1, 0), (2, 0), (3, 0), (4, 0), (5, 1), (7, 1), (9, 2), (13, 2), (17, 3), (25, 3), (33, 4), (49, 4),
  (65, 5), (97, 5), (129, 6), (193, 6), (257, 7), (385, 7), (513, 8), (769, 8), (1025, 9), (1537, 9),
  (2049, 10), (3073, 10), (4097, 11), (6145, 11), (8193, 12), (12289, 12), (16385, 13), (24577, 13)]

/-- The value of a table symbol with its extra bits. -/
def extended (data : ByteArray) (table : Array (Nat × Nat)) (s : Nat) : M Nat :=
  match table[s]? with
  | some (base, extra) => return base + (← bits data extra)
  | none => throw .invalid

/-- Appends `n` bytes, each the one `distance` before it; before the start of the
output there are zeros. -/
def copyBack (distance : Nat) : Nat → ByteArray → ByteArray
  | 0, out => out
  | n + 1, out =>
    copyBack distance n (out.push (if out.size < distance then 0 else Bytes.at0 out (out.size - distance)))

/-- The symbols of a block up to its end mark; the first argument bounds their number. -/
def symbols (data : ByteArray) (lit dist : Code) : Nat → M Unit
  | 0 => throw .short
  | fuel + 1 => do
    let s ← symbol data lit
    if s < 256 then
      emit s.toUInt8
      symbols data lit dist fuel
    else if s = 256 then pure ()
    else
      let n ← extended data lengthTable (s - 257)
      let d ← extended data distanceTable (← symbol data dist)
      modify fun st => { st with out := copyBack d n st.out }
      symbols data lit dist fuel

/-- Copies `n` bytes of a stored block. -/
def storedBytes (data : ByteArray) : Nat → M Unit
  | 0 => pure ()
  | n + 1 => do
    emit (← bits data 8).toUInt8
    storedBytes data n

def stored (data : ByteArray) : M Unit := do
  align
  let n ← bits data 16
  let check ← bits data 16
  if n + check ≠ 0xFFFF then throw .invalid
  storedBytes data n

def fixedLengths : List Nat :=
  List.replicate 144 8 ++ List.replicate 112 9 ++ List.replicate 24 7 ++ List.replicate 8 8

/-- The order in which the code lengths of the length code are given. -/
def lengthOrder : List Nat := [16, 17, 18, 0, 8, 7, 9, 6, 10, 5, 11, 4, 12, 3, 13, 2, 14, 1, 15]

/-- Reads `n` numbers of three bits. -/
def triples (data : ByteArray) : Nat → M (List Nat)
  | 0 => pure []
  | n + 1 => do
    let b ← bits data 3
    return b :: (← triples data n)

/-- The code lengths of both codes, in reverse; `want` are missing still. -/
def codeLengths (data : ByteArray) (c : Code) : Nat → Nat → List Nat → M (List Nat)
  | 0, _, _ => throw .invalid
  | fuel + 1, want, acc => do
    if want = 0 then return acc
    let s ← symbol data c
    if s < 16 then codeLengths data c fuel (want - 1) (s :: acc)
    else
      let (value, n) ← match s, acc with
        | 16, [] => throw .invalid
        | 16, l :: _ => do pure (l, 3 + (← bits data 2))
        | 17, _ => do pure (0, 3 + (← bits data 3))
        | _, _ => do pure (0, 11 + (← bits data 7))
      if want < n then throw .invalid
      codeLengths data c fuel (want - n) (List.replicate n value ++ acc)

/-- The greatest numbers of lengths that the two codes of a block can have. -/
def maxLiterals : Nat := 286
def maxDistances : Nat := 30

/-- The two codes in front of a block. -/
def readCodes (data : ByteArray) : M (Code × Code) := do
  let lits := 257 + (← bits data 5)
  let dists := 1 + (← bits data 5)
  let n := 4 + (← bits data 4)
  if maxLiterals < lits ∨ maxDistances < dists then throw .invalid
  let given ← triples data n
  let known := lengthOrder.zip given
  let c ← Code.ofLengths false ((List.range 19).map fun s => (known.lookup s).getD 0)
  let lengths := (← codeLengths data c (lits + dists + 1) (lits + dists) []).reverse
  let lit ← Code.ofLengths true (lengths.take lits)
  let dist ← Code.ofLengths true (lengths.drop lits)
  return (lit, dist)

/-- The blocks up to the last one; the first argument bounds their number. -/
def blocks (data : ByteArray) : Nat → M Unit
  | 0 => throw .short
  | fuel + 1 => do
    let last ← bit data
    match ← bits data 2 with
    | 0 => stored data
    | 1 =>
      let lit ← Code.ofLengths false fixedLengths
      let dist ← Code.ofLengths false (List.replicate 32 5)
      symbols data lit dist (8 * data.size)
    | 2 =>
      let (lit, dist) ← readCodes data
      symbols data lit dist (8 * data.size)
    | _ => throw .invalid
    if last = 1 then pure () else blocks data fuel

/-- The checksum of two sums, of the bytes and of those sums, modulo 65521. -/
def adler32 (b : ByteArray) : Nat :=
  let (x, y) := b.foldl (fun (s : Nat × Nat) v =>
    let x := (s.1 + v.toNat) % 65521
    (x, (s.2 + x) % 65521)) (1, 0)
  y * 65536 + x

/-- The header of the frame: the method, a check number and no preset dictionary. -/
def header (data : ByteArray) : M Unit := do
  let method ← bits data 8
  let flags ← bits data 8
  if (method * 256 + flags) % 31 ≠ 0 ∨ flags / 32 % 2 = 1 ∨ method % 16 ≠ 8 ∨ 7 < method / 16 then
    throw .invalid

/-- A whole frame. -/
def frame (data : ByteArray) : M Unit := do
  header data
  blocks data (8 * data.size)
  align
  let b₃ ← bits data 8
  let b₂ ← bits data 8
  let b₁ ← bits data 8
  let b₀ ← bits data 8
  if ((b₃ * 256 + b₂) * 256 + b₁) * 256 + b₀ ≠ adler32 (← get).out then throw .invalid

/-- What became of a frame, and how it stopped if it did not end well. -/
def run (data : ByteArray) : State × Option Stop :=
  match (frame data).run {} with
  | .ok () s => (s, none)
  | .error e s => (s, some e)

end Adventure.Inflate
