import Adventure.Game.Sound
import Adventure.Save.Reader

/-! Saving a game to a slot and loading it again. A game is loaded in two steps: the
first one asks for its scene, the second one fills the tables of that scene. -/

namespace Adventure.Game

/-- What is kept of the game. -/
def snapshot (g : Game) : SaveState where
  defaultVars := g.defaultVars.toList
  sceneName := g.sceneFile
  objects := g.tables.activeObjects
  boxCounts := g.tables.boxCounts.toList.map Int16.ofNat
  boxes := g.tables.boxes.toList
  vars := g.vars.toList
  statuses := g.tables.statuses.toList
  bagX := g.bag.x
  bagY := g.bag.y
  bagObject := g.bag.selected
  bag := g.bag.entries
  bagAction := g.bag.action
  music := some { track := UInt32.ofInt g.music.track, name := g.music.name }

def saveSlot (slot : Nat) : M Unit := do
  let g ← get
  let data ← ofExcept (GameError.wrap .save g.snapshot.write)
  match g.saves.writeSlot? slot data with
  | some saves => set { g with saves }
  | none => throw (.write (g.saves.slotPath slot))

/-- The first entries of a table, in place of what is there. -/
def overwrite {α : Type} {n : Nat} (table : Vector α n) (l : List α) : Vector α n :=
  Vector.ofFn fun i => l[i.val]?.getD table[i]

/-- The tables of a saved game in place of those of the scene. -/
def restoreTables (s : SaveState) (t : SceneTables) : SceneTables :=
  { t with
    objectsCount := s.objects.length
    objects := overwrite t.objects s.objects
    boxCounts := overwrite t.boxCounts (s.boxCounts.map fun n => min n.toInt.toNat boxesPerGroup)
    boxes := overwrite t.boxes s.boxes
    statuses := overwrite (Vector.replicate numStatuses {}) s.statuses }

/-- A number of 32 bits with its sign. -/
def signed (n : UInt32) : Int := n.toInt32.toInt

/-- A saved game in place of the running one. -/
def restore (s : SaveState) (g : Game) : Game :=
  { g with
    tables := restoreTables s g.tables
    vars := overwrite g.vars s.vars
    bag := { entries := s.bag, x := s.bagX, y := s.bagY, action := s.bagAction, selected := s.bagObject }
    music := match s.music with
      | some m => { g.music with track := signed m.track, name := m.name }
      | none => g.music }

/-- Takes the first part of a saved game: the variables that its scene starts with, and
the name of the scene. Gives the whole file; a slot that is empty gives none. -/
def loadHeader (slot : Nat) : M (Option ByteArray) := do
  stopMusic
  match (← get).saves.readSlot? slot with
  | none => return none
  | some data =>
    let h ← ofExcept (GameError.wrap .save (SaveState.readHeader data))
    modify fun g => { g with vars := overwrite g.vars h.defaultVars, nextFile := h.sceneName }
    return some data

/-- Asks for the scene of a saved game. -/
def requestSlot (slot : Nat) : M Unit := do
  if (← loadHeader slot).isSome then modify fun g => { g with switching := true }

/-- Puts a saved game in place of the running one. -/
def restoreSlot (slot : Nat) : M Unit := do
  match ← loadHeader slot with
  | none => pure ()
  | some data =>
    let s ← ofExcept (GameError.wrap .save (SaveState.read data true))
    modify (restore s)

end Adventure.Game
