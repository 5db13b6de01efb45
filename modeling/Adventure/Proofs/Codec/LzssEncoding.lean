import Adventure.Codec.Lzss
import Adventure.Proofs.Bytes.Fields

/-! The dictionary compression from the side of a writer. A block is a list of items and
the mark that closes it. Items are written as flags and bytes; the flags are gathered in
words of 16, each in front of the bytes that follow the last flag of the word before. -/

namespace Adventure.Lzss

/-- The numbers from `low` to `high`. -/
abbrev Between (low high : Nat) := { n : Nat // low ≤ n ∧ n ≤ high }

/-- What stands in a block. -/
inductive Item where
  | literal (b : UInt8)
  | short (distance : Between 1 256) (size : Between 2 5)
  | long (distance : Between 1 8192) (size : Between 3 9)
  /-- A copy that has its size in a length byte. -/
  | longer (distance : Between 1 8192) (size : Between 4 256)
  /-- A length byte that stands for nothing. -/
  | idle (distance : Between 1 8192)

/-- A block's items, and the distance in the mark that closes it. -/
structure Block where
  items : List Item
  mark : Between 1 8192

/-! ### Expansion -/

/-- The byte that stands `distance` before the end. -/
def back? (out : List UInt8) (distance : Nat) : Option UInt8 := out.reverse[distance - 1]?

/-- Appends `size` bytes one by one, each the one `distance` before it, if there is such a byte. -/
def copied? (distance : Nat) : Nat → List UInt8 → Option (List UInt8)
  | 0, out => some out
  | size + 1, out => (back? out distance).bind fun b => copied? distance size (out ++ [b])

def Item.expand? (out : List UInt8) : Item → Option (List UInt8)
  | .literal b => some (out ++ [b])
  | .short distance size => copied? distance size out
  | .long distance size => copied? distance size out
  | .longer distance size => copied? distance size out
  | .idle _ => some out

def Block.expand? (out : List UInt8) (b : Block) : Option (List UInt8) := b.items.foldlM Item.expand? out

/-- What the blocks stand for, if no copy reaches before the start. -/
def expand? (blocks : List Block) : Option (List UInt8) := blocks.foldlM Block.expand? []

/-! ### Flags and bytes -/

/-- A flag, or a byte between the flags. -/
inductive Piece where
  | flag (b : Bool)
  | byte (b : UInt8)

/-- The code word of a long copy: the low byte of its offset, a field of three bits, and the
high bits of the offset. -/
def codeWord (distance field : Nat) : UInt16 :=
  UInt16.ofNat ((8192 - distance) % 256 + 256 * field + 2048 * ((8192 - distance) / 256))

def shortPieces (distance field : Nat) : List Piece :=
  [.flag false, .flag false, .flag (field / 2 = 1), .flag (field % 2 = 1), .byte (UInt8.ofNat (256 - distance))]

def longPieces (distance field : Nat) : List Piece :=
  [.flag false, .flag true] ++ (Bytes.word (codeWord distance field)).map .byte

/-- A code word without size and the length byte behind it. -/
def escapePieces (distance : Nat) (n : UInt8) : List Piece := longPieces distance 0 ++ [.byte n]

def Item.pieces : Item → List Piece
  | .literal b => [.flag true, .byte b]
  | .short distance size => shortPieces distance (size - 2)
  | .long distance size => longPieces distance (size - 2)
  | .longer distance size => escapePieces distance (UInt8.ofNat (size - 1))
  | .idle distance => escapePieces distance 1

/-- A number from its bits, the lowest one first. -/
def bitsValue : List Bool → Nat
  | [] => 0
  | b :: l => b.toNat + 2 * bitsValue l

def flagWord (flags : List Bool) : UInt16 := UInt16.ofNat (bitsValue flags)

/-- Lays out the pieces where `left` flags of the open word are free: the flags that go there,
and the bytes behind it. The flag that fills the word opens the next one. -/
def lay : Nat → List Piece → List Bool × List UInt8
  | _, [] => ([], [])
  | left, .byte b :: l => ((lay left l).1, b :: (lay left l).2)
  | left, .flag b :: l =>
    if left ≤ 1 then ([b], Bytes.word (flagWord (lay 16 l).1) ++ (lay 16 l).2)
    else (b :: (lay (left - 1) l).1, (lay (left - 1) l).2)

def stream (l : List Piece) : List UInt8 := Bytes.word (flagWord (lay 16 l).1) ++ (lay 16 l).2

/-! ### Blocks -/

/-- The length byte that closes a block: more blocks follow it or not. -/
def closing (more : Bool) : UInt8 := if more then 2 else 0

def Block.pieces (b : Block) (more : Bool) : List Piece :=
  b.items.flatMap Item.pieces ++ escapePieces b.mark (closing more)

/-- The checksum is taken of what follows it, in words. -/
def checksumOf (sum : UInt16) : List UInt8 → UInt16
  | low :: high :: l => checksumOf (checksumStep sum (low.toUInt16 ||| (high.toUInt16 <<< 8))) l
  | _ => sum

/-- A block's stream, filled up with zeros to `units` less the checksum. -/
def Block.body (b : Block) (more : Bool) (units : Nat) : List UInt8 :=
  stream (b.pieces more) ++ List.replicate (16 * units - 2 - (stream (b.pieces more)).length) 0

def Block.bytes (b : Block) (more : Bool) (units : Nat) : List UInt8 :=
  Bytes.word (checksumOf 0 (b.body more units)) ++ b.body more units

def Block.Fits (b : Block) (more : Bool) (units : Nat) : Prop := (stream (b.pieces more)).length + 2 ≤ 16 * units

instance (b : Block) (more : Bool) (units : Nat) : Decidable (b.Fits more units) :=
  inferInstanceAs (Decidable (_ ≤ _))

/-- The bytes of the blocks. Each but the last is of full size; the last one takes `units`. -/
def blockBytes (units : Nat) : List Block → List UInt8
  | [] => []
  | [b] => b.bytes false units
  | b :: c :: l => b.bytes true blockUnits ++ blockBytes units (c :: l)

def unitTotal (units : Nat) : List Block → Nat
  | [] => 0
  | [_] => units
  | _ :: c :: l => blockUnits + unitTotal units (c :: l)

/-- Every block fits into its units. -/
def BlocksFit (units : Nat) : List Block → Prop
  | [] => True
  | [b] => b.Fits false units ∧ units ≤ blockUnits
  | b :: c :: l => b.Fits true blockUnits ∧ BlocksFit units (c :: l)

instance decidableBlocksFit (units : Nat) : (blocks : List Block) → Decidable (BlocksFit units blocks)
  | [] => inferInstanceAs (Decidable True)
  | [_] => inferInstanceAs (Decidable (_ ∧ _))
  | _ :: c :: l =>
    have := decidableBlocksFit units (c :: l)
    inferInstanceAs (Decidable (_ ∧ _))

/-- The blocks and the number of their units can be written. -/
def Fits (blocks : List Block) (units : Nat) : Prop :=
  BlocksFit units blocks ∧ unitTotal units blocks < UInt32.size

/-- The blocks with a header that declares `n` bytes. -/
def encode (blocks : List Block) (units n : Nat) : ByteArray :=
  Bytes.ofList (Bytes.long (UInt32.ofNat n) ++ Bytes.long (UInt32.ofNat (unitTotal units blocks)) ++
    blockBytes units blocks)

end Adventure.Lzss
