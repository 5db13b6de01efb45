import Adventure.Resource.Error
import Adventure.Codec.Lzss
import Adventure.Codec.Zlib
import Adventure.Picture.Surface

/-! Backgrounds of scenes: a header of 40 bytes, a palette of 256 entries and the
colours of a surface. A file holds them as they are, in blocks of one codec, or
as one stream of the other. -/

namespace Adventure

structure Background where
  palette : ByteArray
  surface : Surface

namespace Background

def paletteOffset : Nat := 40

def bitsOffset : Nat := paletteOffset + 4 * 256

def maxDimension : UInt32 := 4096

/-- A plain file: what stands behind its header of 14 bytes, up to the size given there. -/
def readPlain : ReadM ResourceError ByteArray := do
  let size := (← Cursor.u32).toNat - 14
  Cursor.skip 8
  Cursor.bytes (min (← get).remaining size)

/-- Blocks that are decoded one by one, each with its size in front. -/
def readBlocks : ReadM ResourceError ByteArray :=
  Cursor.loop (fun (out : ByteArray) => do
    if (← get).remaining < 2 then return .inr out
    let size := (← Cursor.u16).toNat
    if size = 0 then return .inl out
    let block ← Cursor.bytes (min size (← get).remaining)
    return .inl (out ++ (← liftCodec (Lzss.decode block)))) ByteArray.empty

def readStream : ReadM ResourceError ByteArray := do
  let c ← get
  liftCodec (Zlib.decode (c.data.extract 2 c.data.size))

/-- The picture with its header, and where the colours stand in it. -/
def readImage : ReadM ResourceError (ByteArray × Nat) := do
  match ← Cursor.u16 with
  | 0x4D42 => return (← readPlain, bitsOffset)
  | 0x5057 => return (← readBlocks, bitsOffset + 4)
  | 0x505A => return (← readStream, bitsOffset)
  | tag => throw (.background tag)

/-- A dimension in the header of a picture. -/
def dimension (image : ByteArray) (offset : Nat) : Except ResourceError UInt32 :=
  match Bytes.le32? image offset with
  | some v => .ok v
  | none => .error (.read ⟨offset, 4, image.size⟩)

/-- The background in a picture. What is missing of it is zero. -/
def ofImage (image : ByteArray) (offset : Nat) : Except ResourceError Background := do
  let width ← dimension image 4
  let height ← dimension image 8
  if width = 0 ∨ height = 0 ∨ width > maxDimension ∨ height > maxDimension then
    throw (.dimensions width height)
  let w := width.toNat
  let h := height.toNat
  let pitch := Surface.roundUp4 w
  let palette := if image.size < bitsOffset then ByteArray.empty else image.extract paletteOffset bitsOffset
  return {
    palette := Bytes.resize palette (4 * 256)
    surface := ⟨w - 1, h - 1, pitch, Bytes.resize (image.extract offset image.size) (pitch * h)⟩ }

def decode (data : ByteArray) : Except ResourceError Background := do
  let (image, offset) ← Cursor.run readImage data
  ofImage image offset

end Background

end Adventure
