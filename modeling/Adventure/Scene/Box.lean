/-! Boxes of a scene: areas that scripts test against objects and lines of sight,
and areas of the background that cover objects behind them. -/

namespace Adventure

/-- A box with its first and last column and row. It is switched off in state 0 and
on in state 1; in state 2 it covers objects of greater depth. -/
structure SceneBox where
  x₁ : Int16 := 0
  x₂ : Int16 := 0
  y₁ : Int16 := 0
  y₂ : Int16 := 0
  state : UInt8 := 0
  z : Int16 := 0
  /-- The first colour that does not cover, and how many of them follow it. -/
  startColor : Int16 := 0
  endColor : Int16 := 0
  deriving DecidableEq, Repr, Inhabited

namespace SceneBox

/-- The box and the rectangle between two corners have a point in common. -/
def meetsRect (b : SceneBox) (x₁ x₂ y₁ y₂ : Int) : Bool :=
  b.x₁.toInt ≤ max x₁ x₂ ∧ min x₁ x₂ ≤ b.x₂.toInt ∧ b.y₁.toInt ≤ max y₁ y₂ ∧ min y₁ y₂ ≤ b.y₂.toInt

def contains (b : SceneBox) (x y : Int) : Bool :=
  b.x₁.toInt ≤ x ∧ x ≤ b.x₂.toInt ∧ b.y₁.toInt ≤ y ∧ y ≤ b.y₂.toInt

/-- Where the line through two points meets the line at `u`, cut to a whole number.
The points are given by their coordinate along `u` and across it. -/
def crossing (u₁ v₁ u₂ v₂ u : Int) : Int := v₁ - ((v₁ - v₂) * (u₁ - u)).tdiv (u₁ - u₂)

/-- A number lies within the box on one axis and within the segment on it. -/
def within (lo hi a b v : Int) : Bool := lo ≤ v ∧ v ≤ hi ∧ min a b ≤ v ∧ v ≤ max a b

/-- A box that is on stands in the way of a segment. -/
def blocks (b : SceneBox) (x₁ y₁ x₂ y₂ : Int) : Bool :=
  b.state = 1 ∧
    (b.contains x₁ y₁ ∨ b.contains x₂ y₂ ∨
      (b.meetsRect x₁ x₂ y₁ y₂ ∧
        (x₁ = x₂ ∨ y₁ = y₂ ∨
          within b.y₁.toInt b.y₂.toInt y₁ y₂ (crossing x₁ y₁ x₂ y₂ b.x₁.toInt) ∨
          within b.y₁.toInt b.y₂.toInt y₁ y₂ (crossing x₁ y₁ x₂ y₂ b.x₂.toInt) ∨
          within b.x₁.toInt b.x₂.toInt x₁ x₂ (crossing y₁ x₁ y₂ x₂ b.y₁.toInt) ∨
          within b.x₁.toInt b.x₂.toInt x₁ x₂ (crossing y₁ x₁ y₂ x₂ b.y₂.toInt))))

end SceneBox

end Adventure
