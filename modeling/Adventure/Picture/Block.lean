import Adventure.Picture.Surface

/-! Copying a block from one surface to the same place of another one. -/

namespace Adventure.Block

/-- A block that lies inside of a surface. -/
structure Clipped where
  x : Nat
  y : Nat
  w : Nat
  h : Nat
  deriving DecidableEq, Repr

/-- The part of a block up to the last column `x₂` and the last row `y₂`. A block
that starts on the last row is left out. -/
def clip? (x y w h : Int) (x₂ y₂ : Nat) : Option Clipped :=
  if w ≤ 0 ∨ x > x₂ ∨ x + w ≤ 0 ∨ h ≤ 0 ∨ y ≥ y₂ ∨ y + h ≤ 0 then none
  else
    let left := max x 0
    let low := max y 0
    some ⟨left.toNat, low.toNat, (min (x + w) (x₂ + 1) - left).toNat, (min (y + h) (y₂ + 1) - low).toNat⟩

/-- Copies `n` bytes, if both buffers hold them all. -/
def copyRow (src : ByteArray) (s : Nat) (dst : ByteArray) (d n : Nat) : ByteArray :=
  if s + n ≤ src.size ∧ d + n ≤ dst.size then src.copySlice s dst d n else dst

/-- Copies the `n` rows from `row` on. -/
def copyRows (src : Surface) (c : Clipped) (row : Nat) : Nat → Surface → Surface
  | 0, dst => dst
  | n + 1, dst =>
    copyRows src c (row + 1) n
      { dst with bits := copyRow src.bits (row * src.pitch + c.x) dst.bits (row * dst.pitch + c.x) c.w }

/-- Copies a block. -/
def copy (x y w h : Int) (src dst : Surface) : Surface :=
  match clip? x y w h (min src.w dst.w) (min src.h dst.h) with
  | none => dst
  | some c => copyRows src c c.y c.h dst

/-- Copies `n` pixels from column `x` on, but for those whose colour is kept. -/
@[specialize] def mixRow (keep : UInt8 → Bool) (src : Surface) (y x : Nat) : Nat → Surface → Surface
  | 0, dst => dst
  | n + 1, dst =>
    mixRow keep src y (x + 1) n <|
      match src.pixel? x y with
      | some p => if keep p then dst else dst.setPixel x y p
      | none => dst

@[specialize] def mixRows (keep : UInt8 → Bool) (src : Surface) (c : Clipped) (row : Nat) : Nat → Surface → Surface
  | 0, dst => dst
  | n + 1, dst => mixRows keep src c (row + 1) n (mixRow keep src row c.x c.w dst)

/-- Copies a block but for the pixels whose colour in `src` lies from `start` up to
but not including `stop`. -/
def mix (x y w h : Int) (src dst : Surface) (start stop : Int) : Surface :=
  match clip? x y w h (min src.w dst.w) (min src.h dst.h) with
  | none => dst
  | some c => mixRows (fun p => start ≤ p.toNat ∧ (p.toNat : Int) < stop) src c c.y c.h dst

end Adventure.Block
