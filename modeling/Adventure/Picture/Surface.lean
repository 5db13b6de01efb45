import Adventure.Bytes.Basic

/-! Surfaces of palette colours. Rows are stored from the bottom up, each padded to
a whole number of four bytes; a surface is described by its last column and row. -/

namespace Adventure

/-- A surface with its last column `w`, its last row `h`, the distance of two rows
and the colours. -/
structure Surface where
  w : Nat := 0
  h : Nat := 0
  pitch : Nat := 0
  bits : ByteArray := ByteArray.empty
  deriving DecidableEq, Inhabited

def screenWidth : Nat := 640

def screenHeight : Nat := 480

namespace Surface

/-- The least multiple of four that is not below `n`. -/
def roundUp4 (n : Nat) : Nat := (n + 3) / 4 * 4

/-- A surface of colour zero. The describing numbers are kept in 16 bits. -/
def ofSize (width height : Nat) : Surface where
  w := (width - 1) % 0x10000
  h := (height - 1) % 0x10000
  pitch := roundUp4 width % 0x10000
  bits := Bytes.replicate (roundUp4 width * height) 0

def screen : Surface := ofSize screenWidth screenHeight

def width (s : Surface) : Nat := s.w + 1

def height (s : Surface) : Nat := s.h + 1

def pixel? (s : Surface) (x y : Nat) : Option UInt8 := s.bits[y * s.pitch + x]?

def setPixel (s : Surface) (x y : Nat) (color : UInt8) : Surface :=
  { s with bits := Bytes.put s.bits (y * s.pitch + x) color }

/-- Appends row `y` without its padding; a row that is not all there is black. -/
def appendRow (s : Surface) (y : Nat) (out : ByteArray) : ByteArray :=
  let start := y * s.pitch
  if start + s.width ≤ s.bits.size then out ++ s.bits.extract start (start + s.width)
  else Bytes.pushN out 0 s.width

/-- Appends the `n` lowest rows, the highest of them first. -/
def appendRows (s : Surface) : Nat → ByteArray → ByteArray
  | 0, out => out
  | n + 1, out => s.appendRows n (s.appendRow n out)

/-- The colours from the top row to the bottom row, without padding. -/
def topDown (s : Surface) : ByteArray :=
  s.appendRows s.height (ByteArray.emptyWithCapacity (s.width * s.height))

end Surface

end Adventure
