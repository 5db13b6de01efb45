import Adventure.Save.State

/-! The file of a saved game. Each table has its number of entries in front; names
take twenty bytes; the bag's sprites stand together, with their offsets behind. -/

namespace Adventure.SaveState

/-- The size of a name. -/
def nameSize : Nat := 20

def pushWord (b : ByteArray) (v : Int16) : ByteArray := Bytes.push16 b v.toUInt16

/-- A number of entries, in 16 bits. -/
def pushCount (b : ByteArray) (n : Nat) : ByteArray := Bytes.push16 b n.toUInt16

def pushWords (b : ByteArray) (l : List Int16) : ByteArray := l.foldl pushWord b

/-- Numbers with their count in front. -/
def pushTable (b : ByteArray) (l : List Int16) : ByteArray := pushWords (pushCount b l.length) l

/-- A name, filled up with zeros. It must leave room for one of them. -/
def pushName (b : ByteArray) (s : String) : Except SaveError ByteArray :=
  let n := s.utf8ByteSize
  if nameSize ≤ n then .error (.nameTooLong s) else .ok (Bytes.pushN (b ++ s.toUTF8) 0 (nameSize - n))

/-- The numbers of an object in the order of the file. -/
def objectWords (o : SceneObject) : List Int16 :=
  [o.xInit, o.yInit, o.x, o.y, o.xPrev, o.yPrev, o.zInit, o.zPrev, o.z, o.frameNum, o.frameNumPrev,
    o.flipInit, o.flip, o.flipPrev, o.motionNum, o.motionInit, o.motionNum1, o.motionNum2, o.motionFrameNum,
    o.mode, o.modeRandom, o.statePrev, o.state]

def pushObject (b : ByteArray) (o : SceneObject) : Except SaveError ByteArray := do
  let b ← pushName (pushWords b (objectWords o)) o.name
  let b ← pushName b o.className
  return pushWords b o.vars.toList

def pushBox (b : ByteArray) (x : SceneBox) : ByteArray :=
  pushWords ((pushWords b [x.x₁, x.x₂, x.y₁, x.y₂]).push x.state) [x.z, x.startColor, x.endColor]

def pushGroup (b : ByteArray) (g : BoxGroup) : ByteArray := g.toList.foldl pushBox b

def pushStatus (b : ByteArray) (s : ObjectStatus) : ByteArray :=
  pushWords b [s.x, s.y, s.z, s.motionNum, s.frameNum, s.flip]

/-- The offsets and names of the bag, the first of them at `offset`. -/
def pushBagNames (b : ByteArray) (offset : Nat) : List BagEntry → Except SaveError ByteArray
  | [] => .ok b
  | e :: r => do
    let b ← pushName (pushCount b offset) e.name
    pushBagNames b (offset + e.data.size) r

def bagSize (bag : List BagEntry) : Nat := bag.foldr (fun e n => e.data.size + n) 0

/-- A text with its length in front. -/
def pushText (b : ByteArray) (s : String) : ByteArray := pushCount b s.utf8ByteSize ++ s.toUTF8

/-- The length of the scene's name counts the zero behind it. -/
def pushHeader (b : ByteArray) (s : SaveState) : ByteArray :=
  (pushCount (pushTable b s.defaultVars) (s.sceneName.utf8ByteSize + 1) ++ s.sceneName.toUTF8).push 0

def pushTables (b : ByteArray) (s : SaveState) : ByteArray :=
  let b := pushTable b s.boxCounts
  let b := s.boxes.foldl pushGroup (pushCount b (s.boxes.length * boxesPerGroup))
  let b := pushTable b s.vars
  s.statuses.foldl pushStatus (pushCount b s.statuses.length)

def pushBag (b : ByteArray) (s : SaveState) : Except SaveError ByteArray := do
  let b := pushWords b [s.bagX, s.bagY, s.bagObject]
  let total := bagSize s.bag
  if 0xFFFF ≤ total then throw (.bagTooLarge total)
  let b := s.bag.foldl (fun (b : ByteArray) e => b ++ e.data) (pushCount b total)
  pushBagNames (pushCount b s.bag.length) 0 s.bag

/-- The track stands twice. -/
def pushMusic (b : ByteArray) (s : SaveState) : ByteArray :=
  let m := s.music.getD {}
  pushText (Bytes.push32 (Bytes.push32 b m.track) m.track) m.name

/-- The file of a saved game. -/
def write (s : SaveState) : Except SaveError ByteArray := do
  let b := pushHeader ByteArray.empty s
  let b ← s.objects.foldlM pushObject (pushCount b s.objects.length)
  let b ← pushBag (pushTables b s) s
  return pushMusic (pushWord b s.bagAction) s

end Adventure.SaveState
