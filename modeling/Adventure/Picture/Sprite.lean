import Adventure.Picture.Surface

/-! Sprites: buffers of a width and a height, each less one, and rows of pixels
from the bottom up. Colour zero is transparent. -/

namespace Adventure.Sprite

/-- The width; zero without a field for it. -/
def width (b : ByteArray) : Nat := ((Bytes.le16? b 0).map fun v => v.toNat + 1).getD 0

/-- The height; zero without a field for it. -/
def height (b : ByteArray) : Nat := ((Bytes.le16? b 2).map fun v => v.toNat + 1).getD 0

/-- The size of a complete buffer. -/
def size (b : ByteArray) : Nat := 4 + width b * height b

/-- A buffer of `height` rows of `width` pixels, cut or filled up with zeros. -/
def make (width height : Nat) (pixels : ByteArray) : ByteArray :=
  let head := Bytes.push16 (Bytes.push16 ByteArray.empty (width - 1).toUInt16) (height - 1).toUInt16
  Bytes.resize (head ++ pixels) (4 + width * height)

/-- The part of a sprite that lies on a surface: its place there, its size, and what
is left out of the sprite before it. -/
structure Window where
  x : Nat
  y : Nat
  w : Nat
  h : Nat
  skipX : Nat
  skipY : Nat
  deriving DecidableEq, Repr

def clip? (x y : Int) (w h : Nat) (dst : Surface) : Option Window :=
  if w = 0 ∨ h = 0 ∨ x > dst.w ∨ x + w ≤ 0 ∨ y > dst.h ∨ y + h ≤ 0 then none
  else
    let left := max x 0
    let low := max y 0
    some {
      x := left.toNat
      y := low.toNat
      w := (min (x + w) (dst.w + 1) - left).toNat
      h := (min (y + h) (dst.h + 1) - low).toNat
      skipX := (left - x).toNat
      skipY := (low - y).toNat }

/-- Sets the `n` pixels from column `x` on to the colours from column `i` of the
sprite on, but for transparent ones. -/
@[specialize] def paintRow (color : Nat → UInt8) (y x i : Nat) : Nat → Surface → Surface
  | 0, dst => dst
  | n + 1, dst =>
    let p := color i
    paintRow color y (x + 1) (i + 1) n (if p = 0 then dst else dst.setPixel x y p)

/-- Paints the `n` rows from row `j` of the window on. -/
@[specialize] def paintRows (color : Nat → Nat → UInt8) (c : Window) (j : Nat) : Nat → Surface → Surface
  | 0, dst => dst
  | n + 1, dst =>
    paintRows color c (j + 1) n
      (paintRow (color (c.skipY + j)) (c.y + j) c.x c.skipX c.w dst)

/-- The colour at a row and a column of a sprite; transparent where pixels are missing. -/
@[inline] def color (b : ByteArray) (w row column : Nat) : UInt8 := Bytes.at0 b (4 + (row * w + column))

/-- Draws a sprite with its lower left corner at `(x, y)`. -/
def draw (x y : Int) (b : ByteArray) (dst : Surface) : Surface :=
  let w := width b
  match clip? x y w (height b) dst with
  | none => dst
  | some c => paintRows (fun row column => color b w row column) c 0 c.h dst

/-- Draws a sprite with each row reversed. -/
def drawMirrored (x y : Int) (b : ByteArray) (dst : Surface) : Surface :=
  let w := width b
  match clip? x y w (height b) dst with
  | none => dst
  | some c => paintRows (fun row column => color b w row (w - 1 - column)) c 0 c.h dst

end Adventure.Sprite
