import Adventure.Scene.Tables
import Adventure.Bytes.Cursor

/-! Saved games: what is kept of a running game, and how it can be wrong. -/

namespace Adventure

/-- The music of a saved game. -/
structure SavedMusic where
  track : UInt32 := 0
  name : String := ""
  deriving DecidableEq, Repr, Inhabited

structure SaveState where
  defaultVars : List Int16
  sceneName : String
  objects : List SceneObject
  boxCounts : List Int16
  boxes : List BoxGroup
  vars : List Int16
  statuses : List ObjectStatus
  bagX : Int16
  bagY : Int16
  bagObject : Int16
  bag : List BagEntry
  bagAction : Int16
  /-- Missing in the games that come with the demo. -/
  music : Option SavedMusic
  deriving DecidableEq

/-- What a game needs before its scene is there: the first part of a saved game. -/
structure SaveHeader where
  defaultVars : List Int16
  sceneName : String
  deriving DecidableEq, Repr

inductive SaveError where
  | read (e : ReadError)
  | tooMany (what : String) (count max : Nat)
  | boxTableSize (n : Nat)
  | bagOffset (index offset size : Nat)
  | bagTooLarge (n : Nat)
  | nameTooLong (name : String)
  deriving DecidableEq, Repr

namespace SaveError

def message : SaveError → String
  | .read e => e.message
  | .tooMany w n m => s!"Save state has {n} {w}, at most {m} supported"
  | .boxTableSize n => s!"Save state box table size {n} is not a multiple of {boxesPerGroup}"
  | .bagOffset i o n => s!"Bag object {i} offset {o} outside of the {n} bytes bag data"
  | .bagTooLarge n => s!"Bag data too large ({n} bytes)"
  | .nameTooLong s => s!"Name '{s}' does not fit a save state field"

instance : OfReadError SaveError := ⟨.read⟩

end SaveError

namespace SaveState

/-- Empty tables of full size. -/
def empty (sceneName : String) : SaveState where
  defaultVars := List.replicate numVars 0
  sceneName
  objects := []
  boxCounts := List.replicate numBoxGroups 0
  boxes := List.replicate numBoxGroups (Vector.replicate boxesPerGroup {})
  vars := List.replicate numVars 0
  statuses := List.replicate numStatuses {}
  bagX := 0
  bagY := 0
  bagObject := -1
  bag := []
  bagAction := 0
  music := some {}

/-- All box groups; those that are not saved are empty. -/
def boxTable (s : SaveState) : BoxTable :=
  Vector.ofFn fun i => s.boxes[i.val]?.getD (Vector.replicate boxesPerGroup {})

end SaveState

end Adventure
