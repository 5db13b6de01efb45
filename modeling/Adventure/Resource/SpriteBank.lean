import Adventure.Resource.Error
import Adventure.Codec.Lzss
import Adventure.Codec.Zlib

/-! Sprite banks: motions, each a run of packed frames. -/

namespace Adventure

/-- How the resources of a bank are packed. -/
inductive Packing where
  | blocks | stream
  deriving DecidableEq, Repr, Inhabited

def Packing.decode : Packing → ByteArray → Except CodecError ByteArray
  | .blocks => Lzss.decode
  | .stream => Zlib.decode

/-- What a bank says about a frame besides its pixels. -/
structure FrameHeader where
  num : Int16
  w : Int16
  h : Int16
  xPos : Int16
  yPos : Int16
  deriving DecidableEq, Repr, Inhabited

structure SpriteFrame where
  packed : ByteArray
  header : FrameHeader
  packing : Packing
  deriving Inhabited

def SpriteFrame.decode (f : SpriteFrame) : Except CodecError ByteArray := f.packing.decode f.packed

structure SpriteBank where
  packing : Packing
  motions : List (List SpriteFrame)

namespace SpriteBank

def framesCount (b : SpriteBank) : Nat := b.motions.flatten.length

def blocksTag : UInt16 := 0x3553

def streamTag : UInt16 := 0x355A

def readFrame (packing : Packing) : ReadM ResourceError SpriteFrame := do
  let packed ← Cursor.bytes (← Cursor.u16).toNat
  let num ← Cursor.i16
  let w ← Cursor.i16
  let h ← Cursor.i16
  let xPos ← Cursor.i16
  let yPos ← Cursor.i16
  return ⟨packed, ⟨num, w, h, xPos, yPos⟩, packing⟩

/-- A motion: its frames behind their number, which is zero at the end of the bank. -/
def readMotion (packing : Packing) : ReadM ResourceError (Option (List SpriteFrame)) := do
  let n ← Cursor.u16
  if n = 0 then return none
  return some (← Cursor.times (readFrame packing) n.toNat)

def read : ReadM ResourceError SpriteBank := do
  let tag ← Cursor.u16
  let packing ←
    if tag = blocksTag then pure Packing.blocks
    else if tag = streamTag then pure Packing.stream
    else throw (.spriteBank tag)
  return ⟨packing, ← Cursor.items (readMotion packing)⟩

def decode (data : ByteArray) : Except ResourceError SpriteBank := Cursor.run read data

end SpriteBank

/-- The most frames of a talking head. -/
def maxTalkingFrames : Nat := 105

/-- The packed frames of a talking head, each with the ten bytes of its header behind it. -/
def readTalkingHead : ReadM ResourceError (List ByteArray) := do
  let tag ← Cursor.u16
  if tag ≠ SpriteBank.blocksTag then throw (.spriteBank tag)
  let n := (← Cursor.u16).toNat
  if maxTalkingFrames < n then throw (.tooManyFrames n)
  Cursor.times (do Cursor.bytes ((← Cursor.u16).toNat + 10)) n

def decodeTalkingHead (data : ByteArray) : Except ResourceError (List ByteArray) :=
  Cursor.run readTalkingHead data

end Adventure
