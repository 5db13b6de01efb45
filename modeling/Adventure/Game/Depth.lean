import Adventure.Game.Tables

/-! The order in which a scene is drawn: from the back to the front, with the boxes of
the background that cover objects between the objects. -/

namespace Adventure

namespace Depth

/-- Moves the entry in place `j` towards the front of the list, by steps of `gap`, past
entries of less depth. -/
def rise (z : Nat → Int16) (gap : Nat) (a : Array Nat) (j : Nat) : Array Nat :=
  if h : 0 < gap ∧ gap ≤ j ∧ j < a.size then
    if z a[j - gap] ≥ z a[j] then a else rise z gap (a.swap (j - gap) j) (j - gap)
  else a
termination_by j
decreasing_by omega

/-- One pass over all places behind the first `gap`. -/
def pass (z : Nat → Int16) (a : Array Nat) (gap : Nat) : Array Nat :=
  (List.range' gap (a.size - gap)).foldl (rise z gap) a

/-- The halves of a number down to one. -/
def halves (n : Nat) : List Nat :=
  if h : n / 2 = 0 then [] else n / 2 :: halves (n / 2)
termination_by n
decreasing_by omega

/-- The numbers below `n` from the greatest depth to the least. -/
def sort (z : Nat → Int16) (n : Nat) : List Nat := ((halves n).foldl (pass z) (Array.range n)).toList

end Depth

/-- A step of drawing a scene: an object by its rank in the order and its slot, or a
box that covers what was drawn before it. -/
inductive Layer where
  | object (rank slot : Nat)
  | box (b : SceneBox)
  deriving DecidableEq, Repr

namespace SceneTables

/-- The slots that are in use, from the back to the front. -/
def sortedSlots (t : SceneTables) : List Nat := Depth.sort (fun i => (t.object i).z) t.objectsCount

/-- The boxes that cover objects of depth `behind` but not those of depth `before`. -/
def covers (t : SceneTables) (behind : Int16) (before : Option Int16) : List Layer :=
  ((ownGroups.flatMap t.groupBoxes).filter fun b =>
    b.state = 2 ∧ b.z ≤ behind ∧ before.all (· < b.z)).map Layer.box

/-- The layers of the given objects, behind one of depth `previous`. -/
def layersFrom (t : SceneTables) : Option Int16 → List (Nat × Nat) → List Layer
  | none, [] => []
  | some p, [] => t.covers p none
  | none, (slot, rank) :: r => .object rank slot :: t.layersFrom (some (t.object slot).z) r
  | some p, (slot, rank) :: r =>
    t.covers p (some (t.object slot).z) ++ .object rank slot :: t.layersFrom (some (t.object slot).z) r

/-- The layers of a scene. -/
def layers (t : SceneTables) (m : Moment) : List Layer :=
  t.layersFrom none (t.sortedSlots.zipIdx.filter fun s => (t.object s.1).isVisibleAt m)

end SceneTables

end Adventure
