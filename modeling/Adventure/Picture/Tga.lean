import Adventure.Picture.Palette

/-! Screenshots as TGA images with run-length coding. A packet is a count with its
high bit set and one colour. -/

namespace Adventure.Tga

/-- The most pixels of one packet. -/
def maxRun : Nat := 128

/-- The bytes of a packet of `n` pixels. -/
def pushPacket (out : ByteArray) (n : Nat) (c : Rgb) : ByteArray :=
  (((out.push (0x80 ||| (n - 1).toUInt8)).push c.b).push c.g).push c.r

/-- Appends the packets of a run of `n` pixels `c` and of the pixels behind it. -/
def pushPackets (out : ByteArray) (n : Nat) (c : Rgb) : List Rgb → ByteArray
  | [] => pushPacket out n c
  | d :: r =>
    if d = c ∧ n < maxRun then pushPackets out (n + 1) c r
    else pushPackets (pushPacket out n c) 1 d r

/-- The header of a coded image of 24 bits per pixel, top row first. -/
def header (w h : Nat) : ByteArray :=
  let out := Bytes.pushN ((ByteArray.empty.push 0).push 0 |>.push 10) 0 9
  let out := Bytes.push16 (Bytes.push16 out w.toUInt16) h.toUInt16
  (out.push 24).push 0x20

/-- The image of the first `w * h` pixels. -/
def encode (pixels : List Rgb) (w h : Nat) : ByteArray :=
  match pixels.take (w * h) with
  | [] => header w h
  | c :: r => pushPackets (header w h) 1 c r

end Adventure.Tga
