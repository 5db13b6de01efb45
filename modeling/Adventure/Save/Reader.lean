import Adventure.Save.Writer

/-! Reading the file of a saved game. -/

namespace Adventure.SaveState

/-- A number of entries, which is limited. -/
def readCount (what : String) (max : Nat) : ReadM SaveError Nat := do
  let n := (← Cursor.u16).toNat
  if max < n then throw (.tooMany what n max)
  return n

/-- Numbers with their count in front. -/
def readTable (what : String) (max : Nat) : ReadM SaveError (List Int16) := do
  Cursor.times Cursor.i16 (← readCount what max)

def readName : ReadM SaveError String := do return Text.ofField (← Cursor.bytes nameSize)

def readVars : ReadM SaveError (Vector Int16 numObjectVars) := do
  let l ← Cursor.times Cursor.i16 numObjectVars
  return Vector.ofFn fun i => l[i.val]?.getD 0

def readObject : ReadM SaveError SceneObject := do
  let xInit ← Cursor.i16
  let yInit ← Cursor.i16
  let x ← Cursor.i16
  let y ← Cursor.i16
  let xPrev ← Cursor.i16
  let yPrev ← Cursor.i16
  let zInit ← Cursor.i16
  let zPrev ← Cursor.i16
  let z ← Cursor.i16
  let frameNum ← Cursor.i16
  let frameNumPrev ← Cursor.i16
  let flipInit ← Cursor.i16
  let flip ← Cursor.i16
  let flipPrev ← Cursor.i16
  let motionNum ← Cursor.i16
  let motionInit ← Cursor.i16
  let motionNum1 ← Cursor.i16
  let motionNum2 ← Cursor.i16
  let motionFrameNum ← Cursor.i16
  let mode ← Cursor.i16
  let modeRandom ← Cursor.i16
  let statePrev ← Cursor.i16
  let state ← Cursor.i16
  let name ← readName
  let className ← readName
  let vars ← readVars
  return { xInit, yInit, x, y, xPrev, yPrev, zInit, zPrev, z, frameNum, frameNumPrev, flipInit, flip, flipPrev,
           motionNum, motionInit, motionNum1, motionNum2, motionFrameNum, mode, modeRandom, statePrev, state,
           name, className, vars }

def readBox : ReadM SaveError SceneBox := do
  let x₁ ← Cursor.i16
  let x₂ ← Cursor.i16
  let y₁ ← Cursor.i16
  let y₂ ← Cursor.i16
  let state ← Cursor.u8
  let z ← Cursor.i16
  let startColor ← Cursor.i16
  let endColor ← Cursor.i16
  return { x₁, x₂, y₁, y₂, state, z, startColor, endColor }

def readGroup : ReadM SaveError BoxGroup := do
  let l ← Cursor.times readBox boxesPerGroup
  return Vector.ofFn fun i => l[i.val]?.getD {}

/-- The box groups. Their number of boxes makes up whole groups. -/
def readBoxes : ReadM SaveError (List BoxGroup) := do
  let n ← readCount "boxes" (numBoxGroups * boxesPerGroup)
  if n % boxesPerGroup ≠ 0 then throw (.boxTableSize n)
  Cursor.times readGroup (n / boxesPerGroup)

def readStatus : ReadM SaveError ObjectStatus := do
  let x ← Cursor.i16
  let y ← Cursor.i16
  let z ← Cursor.i16
  let motionNum ← Cursor.i16
  let frameNum ← Cursor.i16
  let flip ← Cursor.i16
  return { x, y, z, motionNum, frameNum, flip }

def readBagName : ReadM SaveError (Nat × String) := do
  let offset := (← Cursor.u16).toNat
  return (offset, ← readName)

/-- Where a sprite ends: at the next one, or at the end of the data. -/
def spriteEnd (size : Nat) : List (Nat × String) → Nat
  | [] => size
  | (next, _) :: _ => next

/-- The entries of the bag from number `index` on. A sprite reaches up to the next one. -/
def splitBag (data : ByteArray) (index : Nat) : List (Nat × String) → Except SaveError (List BagEntry)
  | [] => .ok []
  | (offset, name) :: r => do
    let stop := spriteEnd data.size r
    if stop < offset ∨ data.size < stop then throw (.bagOffset index offset data.size)
    return ⟨name, data.extract offset stop⟩ :: (← splitBag data (index + 1) r)

def readBag : ReadM SaveError (List BagEntry) := do
  let data ← Cursor.bytes (← Cursor.u16).toNat
  let names ← Cursor.times readBagName (← readCount "bag objects" maxBag)
  match splitBag data 0 names with
  | .ok bag => return bag
  | .error e => throw e

/-- The music, which the games that come with the demo break off. -/
def readMusic (withMusic : Bool) : ReadM SaveError (Option SavedMusic) := do
  discard Cursor.u32
  if withMusic then
    let track ← Cursor.u32
    let name ← Cursor.string16
    return some { track, name }
  return none

def readHeaderFrom : ReadM SaveError SaveHeader := do
  let defaultVars ← readTable "default vars" numVars
  return { defaultVars, sceneName := ← Cursor.string16 }

def readFrom (withMusic : Bool) : ReadM SaveError SaveState := do
  let header ← readHeaderFrom
  let objects ← Cursor.times readObject (← readCount "objects" maxObjects)
  let boxCounts ← readTable "box groups" numBoxGroups
  let boxes ← readBoxes
  let vars ← readTable "vars" numVars
  let statuses ← Cursor.times readStatus (← readCount "object statuses" numStatuses)
  let bagX ← Cursor.i16
  let bagY ← Cursor.i16
  let bagObject ← Cursor.i16
  let bag ← readBag
  let bagAction ← Cursor.i16
  let music ← readMusic withMusic
  return { defaultVars := header.defaultVars, sceneName := header.sceneName, objects, boxCounts, boxes, vars,
           statuses, bagX, bagY, bagObject, bag, bagAction, music }

/-- A saved game from its file. What stands behind it is not looked at. -/
def read (data : ByteArray) (withMusic : Bool) : Except SaveError SaveState :=
  Cursor.run (readFrom withMusic) data

def readHeader (data : ByteArray) : Except SaveError SaveHeader := Cursor.run readHeaderFrom data

end Adventure.SaveState
