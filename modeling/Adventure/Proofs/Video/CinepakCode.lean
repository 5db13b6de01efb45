import Adventure.Proofs.Bytes.Fields
import Adventure.Video.Cinepak
import Mathlib.Data.Nat.Bitwise

/-! Pictures of a cutscene from the side of a writer. A strip brings its books up to date, in full or by masks,
and then says for each of its blocks by which entries it is painted, or that it keeps what it shows. The flags of
these are gathered in masks, each in front of the bytes that belong to its flags. What a picture looks like
is said for each byte of a row. -/

namespace Adventure

namespace PixelVector

/-- The brightness of a pixel, by rows. -/
def brightness (v : PixelVector) : Nat → UInt8
  | 0 => v.y₀
  | 1 => v.y₁
  | 2 => v.y₂
  | _ => v.y₃

/-- A vector as it is written; the colours are signed there. -/
def bytes (v : PixelVector) : List UInt8 := [v.y₀, v.y₁, v.y₂, v.y₃, v.u - 128, v.v - 128]

end PixelVector

namespace Cinepak

/-! ### What is written -/

/-- The entries by which a block is painted: one, or one for each of its quarters. -/
inductive Pick where
  | one (i : UInt8)
  | four (a b c d : UInt8)

/-- A change of a book, from its first entry on. -/
inductive Update where
  | full (book : Book) (vectors : List PixelVector) (few : vectors.length ≤ 256)
  /-- Only some entries are new. -/
  | masked (book : Book) (entries : List (Option PixelVector))

def Update.book : Update → Book
  | full book _ _ => book
  | masked book _ => book

/-- The entries of the book, as far as they are new. -/
def Update.entries : Update → List (Option PixelVector)
  | full _ vectors _ => vectors.map some
  | masked _ entries => entries

/-- The blocks of a strip, row by row. -/
inductive Image where
  | given (blocks : List Pick)
  /-- Some blocks keep what they show. -/
  | changed (blocks : List (Option Pick))
  | plain (blocks : List UInt8)

def Image.blocks : Image → List (Option Pick)
  | given blocks => blocks.map some
  | changed blocks => blocks
  | plain blocks => blocks.map fun i => some (.one i)

/-! ### Bytes -/

/-- Two bytes, the high one first. -/
def bigWord (w : UInt16) : List UInt8 := [(w >>> 8).toUInt8, w.toUInt8]

/-- Four bytes, the high ones first. -/
def bigLong (w : UInt32) : List UInt8 := bigWord (w >>> 16).toUInt16 ++ bigWord w.toUInt16

/-- The number of the first `n` of some bits, the first one being the highest; bits that are not given are clear. -/
def bitsValue : Nat → List Bool → Nat
  | 0, _ => 0
  | _ + 1, [] => 0
  | n + 1, b :: bits => b.toNat * 2 ^ n + bitsValue n bits

/-- A mask of the first 32 of some flags. -/
def maskOf (flags : List Bool) : UInt32 := UInt32.ofNat (bitsValue 32 flags)

/-- Flags with the bytes that belong to them, in masks of 32 flags. Each mask stands in front of the
bytes of its flags. -/
def gathered (l : List (Bool × List UInt8)) : List UInt8 :=
  if _h : l = [] then []
  else bigLong (maskOf (l.map Prod.fst)) ++ (l.take 32).flatMap Prod.snd ++ gathered (l.drop 32)
termination_by l.length
decreasing_by
  have := List.length_pos_iff.mpr _h
  simp only [List.length_drop]
  omega

def Pick.isFour : Pick → Bool
  | one _ => false
  | four .. => true

def Pick.bytes : Pick → List UInt8
  | one i => [i]
  | four a b c d => [a, b, c, d]

/-- An entry that may be new: the flag says whether it is. -/
def entryFlag (e : Option PixelVector) : Bool × List UInt8 := (e.isSome, (e.map PixelVector.bytes).getD [])

/-- A block that is given: the flag says of how many entries. -/
def Pick.flag (p : Pick) : Bool × List UInt8 := (p.isFour, p.bytes)

/-- A block that may keep what it shows: a flag says whether it does not, and another one by how many
entries it is painted then. -/
def blockFlags : Option Pick → List (Bool × List UInt8)
  | none => [(false, [])]
  | some p => [(true, []), p.flag]

def Update.kind : Update → UInt16
  | full .v4 _ _ => 0x2000
  | full .v1 _ _ => 0x2200
  | masked .v4 _ => 0x2100
  | masked .v1 _ => 0x2300

def Update.content : Update → List UInt8
  | full _ vectors _ => vectors.flatMap PixelVector.bytes
  | masked _ entries => gathered (entries.map entryFlag)

def Image.kind : Image → UInt16
  | given _ => 0x3000
  | changed _ => 0x3100
  | plain _ => 0x3200

def Image.content : Image → List UInt8
  | given blocks => gathered (blocks.map Pick.flag)
  | changed blocks => gathered (blocks.flatMap blockFlags)
  | plain blocks => blocks

/-- A chunk: what it is, its size with these two fields, and its content. -/
def chunkBytes (kind : UInt16) (content : List UInt8) : List UInt8 :=
  bigWord kind ++ bigWord (UInt16.ofNat (content.length + 4)) ++ content

def chunkList (updates : List Update) (image : Image) : List UInt8 :=
  updates.flatMap (fun u => chunkBytes u.kind u.content) ++ chunkBytes image.kind image.content

/-- The number of blocks in a row. -/
def rowBlocks : Nat := 80

/-- A strip of some rows of blocks. Fields that are passed over may hold anything. -/
structure StripCode where
  kind : UInt16
  top : UInt16
  left : UInt16
  right : UInt16
  rows : Nat
  updates : List Update
  image : Image
  complete : image.blocks.length = rowBlocks * rows
  fits : (chunkList updates image).length + 12 < 2 ^ 16

def StripCode.bytes (s : StripCode) : List UInt8 :=
  bigWord s.kind ++ bigWord (UInt16.ofNat ((chunkList s.updates s.image).length + 12)) ++ bigWord s.top ++
    bigWord s.left ++ bigWord (UInt16.ofNat (4 * s.rows)) ++ bigWord s.right ++ chunkList s.updates s.image

/-- A picture: two strips of 50 rows of blocks in all. -/
structure PictureCode where
  flags : UInt8
  length₀ : UInt8
  length₁ : UInt8
  length₂ : UInt8
  upper : StripCode
  lower : StripCode
  rows : upper.rows + lower.rows = 50

def PictureCode.bytes (p : PictureCode) : List UInt8 :=
  [p.flags, p.length₀, p.length₁, p.length₂] ++ bigWord 320 ++ bigWord 200 ++ bigWord 2 ++ p.upper.bytes ++ p.lower.bytes

/-! ### What it looks like -/

/-- A book with its new entries. -/
def updatedBook (entries : List (Option PixelVector)) (b : Codebook) : Codebook :=
  Vector.ofFn fun i => (entries[i.val]?.join).getD b[i]

/-- The books with one of them changed. -/
def changed (book : Book) (f : Codebook → Codebook) (b : Codebooks) : Codebooks :=
  match book with
  | .v1 => { b with v1 := f b.v1 }
  | .v4 => { b with v4 := f b.v4 }

def Update.apply (b : Codebooks) (u : Update) : Codebooks := changed u.book (updatedBook u.entries) b

def StripCode.books (s : StripCode) (b : Codebooks) : Codebooks := s.updates.foldl Update.apply b

/-- What a block is painted with. -/
inductive Block where
  | one (v : PixelVector)
  | four (a b c d : PixelVector)

def Pick.block (b : Codebooks) : Pick → Block
  | one i => .one (lookup b.v1 i)
  | four i j k l => .four (lookup b.v4 i) (lookup b.v4 j) (lookup b.v4 k) (lookup b.v4 l)

/-- The vector of a quarter of a block, by rows. -/
def Block.quarter : Block → Nat → PixelVector
  | one v, _ => v
  | four a _ _ _, 0 => a
  | four _ b _ _, 1 => b
  | four _ _ c _, 2 => c
  | four _ _ _ d, _ => d

/-- The brightness of a pixel of a block, by row and column. A single vector is enlarged. -/
def Block.brightness (b : Block) (row column : Nat) : UInt8 :=
  match b with
  | one v => v.brightness (2 * (row / 2) + column / 2)
  | four .. => (b.quarter (2 * (row / 2) + column / 2)).brightness (2 * (row % 2) + column % 2)

/-- Byte `k` of a row of a block: two pixels share four bytes, a part of the colour and a brightness in turns. -/
def Block.byte (b : Block) (row k : Nat) : UInt8 :=
  match k % 4 with
  | 0 => (b.quarter (2 * (row / 2) + k / 4)).u
  | 2 => (b.quarter (2 * (row / 2) + k / 4)).v
  | _ => b.brightness row (k / 2)

/-- The number of bytes of a frame. -/
def frameBytes : Nat := pitch * Avi.frameHeight

/-- A picture by its rows and the bytes in each. -/
abbrev Pixels := Nat → Nat → UInt8

def pixels (frame : ByteArray) : Pixels := fun row k => Bytes.at0 frame (row * pitch + k)

/-- The frame that looks like a picture. -/
def frameOf (picture : Pixels) : ByteArray :=
  Bytes.ofList ((List.range frameBytes).map fun i => picture (i / pitch) (i % pitch))

/-- The blocks of a strip that starts in the given row, painted on top of a picture. -/
def painted (top : Nat) (blocks : List (Option Block)) (old : Pixels) : Pixels := fun row k =>
  if top ≤ row then
    (blocks[rowBlocks * ((row - top) / 4) + k / 8]?.join.map fun b => b.byte ((row - top) % 4) (k % 8)).getD (old row k)
  else old row k

def StripCode.blocks (s : StripCode) (b : Codebooks) : List (Option Block) :=
  s.image.blocks.map fun p => p.map (Pick.block (s.books b))

namespace PictureCode

variable (p : PictureCode) (c : Cinepak)

def upperBooks : Codebooks := p.upper.books c.upper

/-- The books that the lower strip starts with: those of the upper strip, unless the flags say otherwise. -/
def startBooks : Codebooks := if p.flags &&& 1 = 0 then p.upperBooks c else c.lower

def lowerBooks : Codebooks := p.lower.books (p.startBooks c)

/-- What the picture looks like on top of the one before it. -/
def picture : Pixels :=
  painted (4 * p.upper.rows) (p.lower.blocks (p.startBooks c)) (painted 0 (p.upper.blocks c.upper) (pixels c.frame))

end PictureCode

end Cinepak

end Adventure
