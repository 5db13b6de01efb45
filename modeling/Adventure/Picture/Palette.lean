import Adventure.Bytes.Basic

/-! Colours of the screen. -/

namespace Adventure

/-- A colour of the screen. -/
structure Rgb where
  r : UInt8
  g : UInt8
  b : UInt8
  deriving DecidableEq, Repr, Inhabited

namespace Palette

/-- The colour of entry `i` of a palette of blue, green, red and a spare byte each.
Entry zero is black, and so is an entry that is not all there. -/
def entry (palette : ByteArray) (i : Nat) : Rgb :=
  if i = 0 ∨ palette.size < 4 * i + 4 then ⟨0, 0, 0⟩
  else ⟨Bytes.at0 palette (4 * i + 2), Bytes.at0 palette (4 * i + 1), Bytes.at0 palette (4 * i)⟩

/-- Appends the three bytes of a colour. -/
def push (out : ByteArray) (c : Rgb) : ByteArray := ((out.push c.r).push c.g).push c.b

/-- All 256 colours, three bytes each. -/
def toRgb (palette : ByteArray) : ByteArray :=
  (List.range 256).foldl (fun (out : ByteArray) i => push out (entry palette i)) (ByteArray.emptyWithCapacity 768)

end Palette

end Adventure
