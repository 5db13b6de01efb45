/-! Rectangles of pixels. -/

namespace Adventure

/-- A rectangle with its top left corner and its size. -/
structure Rect where
  x : Int
  y : Int
  w : Int
  h : Int
  deriving DecidableEq, Repr, Inhabited

/-- The common part with `clip` and whether there is one. Without a common part
the corner stays and the size is zero. -/
def Rect.clipTo (r clip : Rect) : Bool × Rect :=
  let x₁ := max r.x clip.x
  let y₁ := max r.y clip.y
  let x₂ := min (r.x + r.w) (clip.x + clip.w)
  let y₂ := min (r.y + r.h) (clip.y + clip.h)
  if x₂ ≤ x₁ ∨ y₂ ≤ y₁ then (false, { r with w := 0, h := 0 })
  else (true, ⟨x₁, y₁, x₂ - x₁, y₂ - y₁⟩)

end Adventure
