import Adventure.Resource.Error
import Adventure.Text.Name

/-! Movies: what an animation brings into a scene. A file names a sprite bank and
a background and holds sections of sounds, boxes and objects; the script ends it. -/

namespace Adventure

/-- A box of a movie, in a group counted from zero. -/
structure MovieBox where
  group : Nat
  state : UInt8
  x₁ : Int16
  y₁ : Int16
  x₂ : Int16
  y₂ : Int16
  deriving DecidableEq, Repr, Inhabited

/-- An object of a movie. Motion and frame are counted from zero. -/
structure MovieObject where
  name : String := ""
  className : String := ""
  mode : Int16 := 0
  modeRandom : Int16 := 0
  xInit : Int16 := 0
  yInit : Int16 := 0
  zInit : Int16 := 0
  flipInit : Int16 := 0
  motionNum : Int16 := 0
  motionFrameNum : Int16 := 0
  vars : List (Nat × Int16) := []
  deriving DecidableEq, Repr, Inhabited

structure Movie where
  bankName : String := ""
  backgroundName : String := ""
  speed : UInt16 := 0
  sounds : List String := []
  boxes : List MovieBox := []
  objects : List MovieObject := []
  script : ByteArray := ByteArray.empty
  unused : Int16 := 0
  deriving DecidableEq, Inhabited

namespace Movie

def tag : UInt16 := 0x354D

/-- The number of variables of an object. -/
def objectVars : UInt16 := 10

def readSound : ReadM ResourceError (Option String) := do
  let name ← Cursor.string16
  return if name.isEmpty then none else some name

def readBox : ReadM ResourceError (Option MovieBox) := do
  let index ← Cursor.u16
  if index = 0 then return none
  let state ← Cursor.u8
  let x₁ ← Cursor.i16
  let y₁ ← Cursor.i16
  let x₂ ← Cursor.i16
  let y₂ ← Cursor.i16
  return some ⟨index.toNat - 1, state, x₁, y₁, x₂, y₂⟩

/-- One record of an object, or the object when there are no more. -/
def readRecord (o : MovieObject) : ReadM ResourceError (MovieObject ⊕ MovieObject) := do
  match ← Cursor.u16 with
  | 0 => return .inr o
  | 2000 => return .inl { o with className := ← Cursor.string16 }
  | 3000 =>
    let mode ← Cursor.i16
    if mode = 2 then return .inl { o with mode, modeRandom := ← Cursor.i16 }
    return .inl { o with mode }
  | 3500 =>
    let xInit ← Cursor.i16
    let yInit ← Cursor.i16
    return .inl { o with xInit, yInit }
  | 4000 => return .inl { o with zInit := ← Cursor.i16 }
  | 4500 => return .inl { o with flipInit := ← Cursor.i16 }
  | 5000 => return .inl { o with motionFrameNum := (← Cursor.i16) - 1 }
  | 5500 => return .inl { o with motionNum := (← Cursor.i16) - 1 }
  | 6000 =>
    let index ← Cursor.u16
    if objectVars ≤ index then throw (.objectVar index)
    return .inl { o with vars := o.vars ++ [(index.toNat, ← Cursor.i16)] }
  | kind => throw (.initRecord kind)

def readObject : ReadM ResourceError MovieObject := do
  let name ← Cursor.string16
  Cursor.loop readRecord { name }

/-- One section, or the movie when it was the script. -/
def readSection (m : Movie) : ReadM ResourceError (Movie ⊕ Movie) := do
  match ← Cursor.u16 with
  | 1 => return .inl { m with sounds := m.sounds ++ (← Cursor.items readSound) }
  | 2 => return .inl { m with boxes := m.boxes ++ (← Cursor.items readBox) }
  | 3 =>
    let o ← readObject
    if m.objects.any fun p => p.name = o.name then throw (.duplicateObject o.name)
    return .inl { m with objects := m.objects ++ [o] }
  | 4 => return .inr { m with script := ← Cursor.bytes (← Cursor.u16).toNat }
  | 5 => return .inl { m with unused := ← Cursor.i16 }
  | kind => throw (.section_ kind)

def read : ReadM ResourceError Movie := do
  let t ← Cursor.u16
  if t ≠ tag then throw (.movie t)
  let bankName ← Cursor.string16
  let backgroundName ← Cursor.string16
  let speed ← Cursor.u16
  Cursor.loop readSection { bankName, backgroundName, speed }

def decode (data : ByteArray) : Except ResourceError Movie := Cursor.run read data

/-- The path of a movie's sprite bank, which lies beside the movie. -/
def bankPath (moviePath bankName : String) : String := Text.folder moviePath ++ bankName

end Movie

end Adventure
