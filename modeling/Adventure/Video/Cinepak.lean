import Adventure.Video.Avi

/-! Pictures of a cutscene. A picture has two strips; each brings two books of pixel
vectors up to date and then paints its blocks of four by four pixels, by one vector
that is enlarged or by four vectors. The picture holds two bytes per pixel: brightness,
and in turns the two parts of the colour of two pixels. -/

namespace Adventure

/-- Two by two pixels: four brightnesses and a common colour. -/
structure PixelVector where
  y₀ : UInt8 := 0
  y₁ : UInt8 := 0
  y₂ : UInt8 := 0
  y₃ : UInt8 := 0
  u : UInt8 := 0
  v : UInt8 := 0
  deriving DecidableEq, Repr, Inhabited

abbrev Codebook := Vector PixelVector 256

/-- The books of a strip, for blocks of one vector and of four. -/
structure Codebooks where
  v1 : Codebook := Vector.replicate 256 {}
  v4 : Codebook := Vector.replicate 256 {}
  deriving Inhabited

/-- What a decoder keeps from picture to picture. -/
structure Cinepak where
  upper : Codebooks := {}
  lower : Codebooks := {}
  frame : ByteArray := Bytes.replicate (2 * Avi.frameWidth * Avi.frameHeight) 0

namespace Cinepak

def pitch : Nat := 2 * Avi.frameWidth

/-- The reading position, the books of the current strip, and the place of the next
block in the picture. -/
structure State where
  pos : Nat
  books : Codebooks
  x : Nat
  y : Nat
  frame : ByteArray

abbrev M := EStateM VideoError State

def byte (data : ByteArray) : M UInt8 := fun s =>
  if h : s.pos < data.size then .ok data[s.pos] { s with pos := s.pos + 1 }
  else .error (.pictureEnd s.pos) s

/-- Two bytes, the high one first. -/
def word (data : ByteArray) : M UInt16 := do
  let hi ← byte data
  let lo ← byte data
  return (hi.toUInt16 <<< 8) ||| lo.toUInt16

/-- Four bytes, the high ones first. -/
def long (data : ByteArray) : M UInt32 := do
  let hi ← word data
  let lo ← word data
  return (hi.toUInt32 <<< 16) ||| lo.toUInt32

/-- Moves the reading position, not beyond the start. -/
def advance (n : Int) : M Unit := modify fun s => { s with pos := ((s.pos : Int) + n).toNat }

/-- Paints two pixels of the current block. -/
def put (row column : Nat) (a b c d : UInt8) : M Unit := modify fun s =>
  let i := (s.y + row) * pitch + 2 * (s.x + column)
  if i + 4 ≤ s.frame.size then
    { s with frame := Bytes.put (Bytes.put (Bytes.put (Bytes.put s.frame i a) (i + 1) b) (i + 2) c) (i + 3) d }
  else s

/-- Paints a quarter of the current block. -/
def paintQuarter (row column : Nat) (q : PixelVector) : M Unit := do
  put row column q.u q.y₀ q.v q.y₁
  put (row + 1) column q.u q.y₂ q.v q.y₃

/-- Paints the current block by four vectors. -/
def paintV4 (a b c d : PixelVector) : M Unit := do
  paintQuarter 0 0 a
  paintQuarter 0 2 b
  paintQuarter 2 0 c
  paintQuarter 2 2 d

/-- Paints the current block by one vector, each of its pixels twice as large. -/
def paintV1 (v : PixelVector) : M Unit := do
  put 0 0 v.u v.y₀ v.v v.y₀
  put 0 2 v.u v.y₁ v.v v.y₁
  put 1 0 v.u v.y₀ v.v v.y₀
  put 1 2 v.u v.y₁ v.v v.y₁
  put 2 0 v.u v.y₂ v.v v.y₂
  put 2 2 v.u v.y₃ v.v v.y₃
  put 3 0 v.u v.y₂ v.v v.y₂
  put 3 2 v.u v.y₃ v.v v.y₃

/-- Goes on to the next block. -/
def nextBlock : M Unit := modify fun s =>
  if Avi.frameWidth ≤ s.x + 4 then { s with x := 0, y := s.y + 4 } else { s with x := s.x + 4 }

def readVector (data : ByteArray) : M PixelVector := do
  let y₀ ← byte data
  let y₁ ← byte data
  let y₂ ← byte data
  let y₃ ← byte data
  let u ← byte data
  let v ← byte data
  return ⟨y₀, y₁, y₂, y₃, u + 128, v + 128⟩

/-- The entry of a book. -/
def lookup (book : Codebook) (i : UInt8) : PixelVector := book[i.toNat]?.getD {}

/-- Reads and paints a block of one vector. -/
def blockV1 (data : ByteArray) : M Unit := do
  let i ← byte data
  paintV1 (lookup (← get).books.v1 i)

/-- Reads and paints a block of four vectors. -/
def blockV4 (data : ByteArray) : M Unit := do
  let a ← byte data
  let b ← byte data
  let c ← byte data
  let d ← byte data
  let book := (← get).books.v4
  paintV4 (lookup book a) (lookup book b) (lookup book c) (lookup book d)

inductive Book where
  | v1 | v4
  deriving DecidableEq, Repr

/-- Changes an entry of a book; there is none beyond the end. -/
def setVector (book : Book) (i : Nat) (v : PixelVector) : M Unit := modify fun s =>
  match book with
  | .v1 => { s with books := { s.books with v1 := s.books.v1.setIfInBounds i v } }
  | .v4 => { s with books := { s.books with v4 := s.books.v4.setIfInBounds i v } }

/-- Reads `n` entries of a book from entry `i` on. -/
def fullBook (data : ByteArray) (book : Book) (i : Nat) : Nat → M Unit
  | 0 => pure ()
  | n + 1 => do
    setVector book i (← readVector data)
    fullBook data book (i + 1) n

/-- Bit `i` of a mask, the highest one being the first. -/
def maskBit (mask : UInt32) (i : Nat) : Bool := mask &&& ((1 : UInt32) <<< (31 - i).toUInt32) ≠ 0

/-- Reads the entries from `i` on that the last `n` bits of a mask name, and gives what is
left of the size. -/
def maskedEntries (data : ByteArray) (book : Book) (mask : UInt32) (i : Nat) (size : Int) : Nat → M Int
  | 0 => return size
  | n + 1 => do
    if maskBit mask (32 - (n + 1)) then
      setVector book i (← readVector data)
      maskedEntries data book mask (i + 1) (size - 6) n
    else maskedEntries data book mask (i + 1) size n

/-- Reads masks and the entries they name, from entry `i` on. The number of masks is
bounded by the first argument. -/
def maskedBook (data : ByteArray) (book : Book) : Nat → Nat → Int → M Int
  | 0, _, size => return size
  | fuel + 1, i, size => do
    if size ≤ 0 then return size
    let mask ← long data
    let size ← maskedEntries data book mask i (size - 4) 32
    maskedBook data book fuel (i + 32) size

/-- The current block lies above the end of the strip. -/
def inStrip (yEnd : Nat) : M Bool := return (← get).y < yEnd

/-- Paints the blocks of the last `n` bits of a mask: four vectors for a set bit, one
vector for a clear one. -/
def maskedBlocks (data : ByteArray) (yEnd : Nat) (mask : UInt32) (size : Int) : Nat → M Int
  | 0 => return size
  | n + 1 => do
    if !(← inStrip yEnd) then return size
    if maskBit mask (32 - (n + 1)) then
      blockV4 data
      nextBlock
      maskedBlocks data yEnd mask (size - 4) n
    else
      blockV1 data
      nextBlock
      maskedBlocks data yEnd mask (size - 1) n

/-- A picture in which every block is given. -/
def intraBlocks (data : ByteArray) (yEnd : Nat) : Nat → Int → M Int
  | 0, size => return size
  | fuel + 1, size => do
    if size ≤ 0 ∨ !(← inStrip yEnd) then return size
    let mask ← long data
    let size ← maskedBlocks data yEnd mask (size - 4) 32
    intraBlocks data yEnd fuel size

/-- A block that is not skipped: the bit tells its kind. -/
def chosenBlock (data : ByteArray) (four : Bool) : M Int := do
  if four then
    blockV4 data
    return 4
  else
    blockV1 data
    return 1

/-- The blocks from bit `bit` of a mask on. A clear bit skips a block; a set bit is
followed by one for the kind, which may be the first bit of another mask. -/
def interMask (data : ByteArray) (yEnd : Nat) : Nat → UInt32 → Nat → Int → M Int
  | 0, _, _, size => return size
  | fuel + 1, mask, bit, size => do
    if 32 ≤ bit ∨ size < 0 ∨ !(← inStrip yEnd) then return size
    if maskBit mask bit then
      if bit + 1 = 32 then
        let mask ← long data
        let n ← chosenBlock data (maskBit mask 0)
        nextBlock
        interMask data yEnd fuel mask 1 (size - 4 - n)
      else
        let n ← chosenBlock data (maskBit mask (bit + 1))
        nextBlock
        interMask data yEnd fuel mask (bit + 2) (size - n)
    else
      nextBlock
      interMask data yEnd fuel mask (bit + 1) size

/-- A picture in which blocks may keep what they show. -/
def interBlocks (data : ByteArray) (yEnd : Nat) : Nat → Int → M Int
  | 0, size => return size
  | fuel + 1, size => do
    if size ≤ 0 ∨ !(← inStrip yEnd) then return size
    let mask ← long data
    let size ← interMask data yEnd (33 * (size.toNat + 1)) mask 0 (size - 4)
    interBlocks data yEnd fuel size

/-- A picture of blocks of one vector. -/
def plainBlocks (data : ByteArray) (yEnd : Nat) : Nat → Int → M Int
  | 0, size => return size
  | fuel + 1, size => do
    if size ≤ 0 ∨ !(← inStrip yEnd) then return size
    blockV1 data
    nextBlock
    plainBlocks data yEnd fuel (size - 1)

/-- The number of vectors in `size` bytes that find room in a book. -/
def vectorCount (size : Int) : Nat := min (size.tdiv 6).toNat 256

/-- The content of a chunk of `size` bytes, and what is left of the size. -/
def content (data : ByteArray) (yEnd : Nat) (kind : UInt16) (size : Int) : M Int :=
  let fuel := size.toNat + 1
  let full (book : Book) : M Int := do
    let n := vectorCount size
    fullBook data book 0 n
    return size - 6 * n
  match kind with
  | 0x2000 => full .v4
  | 0x2200 => full .v1
  | 0x2100 => maskedBook data .v4 fuel 0 size
  | 0x2300 => maskedBook data .v1 fuel 0 size
  | 0x3000 => intraBlocks data yEnd fuel size
  | 0x3100 => interBlocks data yEnd fuel size
  | 0x3200 => plainBlocks data yEnd fuel size
  | _ => return size

/-- A chunk. Reading goes on behind its size, whatever its content took. -/
def chunk (data : ByteArray) (yEnd : Nat) : M Nat := do
  let kind ← word data
  let total := (← word data).toNat
  let left ← content data yEnd kind ((total : Int) - 4)
  advance left
  return total

/-- Repeats a step on a value until one gives the result. If none ever does there is no outcome. -/
def State.loop? {σ ρ : Type} (step : σ → M (σ ⊕ ρ)) (a : σ) (s : State) : Option (EStateM.Result VideoError State ρ) :=
  match step a s with
  | .ok (.inl b) t => t |>.loop? step b
  | .ok (.inr r) t => some (.ok r t)
  | .error e t => some (.error e t)
partial_fixpoint

/-- A chunk, as long as there is something left of the size, and what is left of it behind the chunk. -/
def chunkRound (data : ByteArray) (yEnd : Nat) (size : Int) : M (Int ⊕ Unit) := do
  if 0 < size then
    let total ← chunk data yEnd
    return .inl (size - total)
  else return .inr ()

/-- The chunks of a strip of `size` bytes. -/
def chunks (data : ByteArray) (yEnd : Nat) (size : Int) : M Unit := fun s =>
  (s.loop? (chunkRound data yEnd) size).getD (.error .endless s)

/-- A strip behind the row where the one above it ends, and the row where it ends itself. -/
def strip (data : ByteArray) (yStart : Nat) : M Nat := do
  discard (word data)
  let size := (← word data).toNat
  discard (word data)
  discard (word data)
  let height := (← word data).toNat
  discard (word data)
  modify fun s => { s with x := 0 }
  chunks data (yStart + height) (size - 12)
  return yStart + height

/-- The header of a picture: its flags. -/
def header (data : ByteArray) : M UInt8 := do
  let flags ← byte data
  advance 3
  let w ← word data
  let h ← word data
  let strips ← word data
  if w.toNat ≠ Avi.frameWidth ∨ h.toNat ≠ Avi.frameHeight ∨ strips ≠ 2 then throw (.pictureFormat w h strips)
  return flags

/-- A picture, and the books of its upper strip. The lower strip starts with those books
unless the flags say otherwise. -/
def picture (data : ByteArray) (lower : Codebooks) : M Codebooks := do
  let flags ← header data
  let yEnd ← strip data 0
  let upper := (← get).books
  if flags &&& 1 ≠ 0 then modify fun s => { s with books := lower }
  discard (strip data yEnd)
  return upper

/-- Decodes a picture on top of the one before it. -/
def decode (c : Cinepak) (data : ByteArray) : Except VideoError Cinepak :=
  match picture data c.lower ⟨0, c.upper, 0, 0, c.frame⟩ with
  | .ok upper s => .ok { upper, lower := s.books, frame := s.frame }
  | .error e _ => .error e

end Cinepak

end Adventure
