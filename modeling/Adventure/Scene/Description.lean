import Adventure.Scene.Host
import Adventure.Text.Name

/-! Scene descriptions. A text is a list of commands and of sections; each line may be
guarded by tests of variables, which skip it when one of them fails. -/

namespace Adventure

/-- How far a description has been read, and what it has done. -/
structure Description (H : Type) where
  tokens : Tokenizer
  part : Section := .top
  /-- The object that the lines of an object section are about. -/
  object : Option Nat := none
  /-- How many of the loaded animations are kept. -/
  kept : Nat := 0
  /-- The animations differ from those that were loaded; the rest is loaded anew. -/
  loading : Bool := false
  host : H

namespace Description

variable {H ε : Type} [SceneHost H ε]

/-- A step of reading a description. -/
abbrev M (H ε : Type) := EStateM ε (Description H)

def fault {α : Type} (e : SceneError) : M H ε α := throw (SceneHost.fault H e)

def onTokens {α : Type} (f : Tokenizer → α × Tokenizer) : M H ε α := modifyGet fun s =>
  let (a, t) := f s.tokens
  (a, { s with tokens := t })

/-- The next word, empty at the end of the text. -/
def word : M H ε String := do return (← onTokens Tokenizer.word?).getD ""

/-- Reads a number or the like. -/
def checked {α : Type} (f : Tokenizer → Except TokenError α × Tokenizer) : M H ε α := do
  match ← onTokens f with
  | .ok a => return a
  | .error e => fault (.token e)

def int : M H ε Int := checked Tokenizer.int

def arrayIndex : M H ε Int := checked Tokenizer.arrayIndex

def coord : M H ε (Int16 × Int16) := checked Tokenizer.coord

def skipLine : M H ε Unit := do discard (onTokens Tokenizer.line?)

/-- The number that a word stands for. -/
def number (w : String) : M H ε Int :=
  match Text.readInt? w.toList with
  | some v => return v
  | none => fault (.token (.integer w))

def theHost : M H ε H := do return (← get).host

def onHost (f : H → H) : M H ε Unit := modify fun s => { s with host := f s.host }

def runHost {α : Type} (m : EStateM ε H α) : M H ε α := fun s =>
  match m s.host with
  | .ok a h => .ok a { s with host := h }
  | .error e h => .error e { s with host := h }

def enter (part : Section) : M H ε Unit := modify fun s => { s with part }

def onObject (i : Nat) (f : SceneObject → SceneObject) : M H ε Unit := onHost (SceneHost.modifyObject i f)

/-- The scene's number. One scene misspells it. -/
def isSceneNumber (w : String) : Bool := w = "SceneNumber" ∨ w = "ScenenNumber"

def compare (a b : Int) (op : String) : Option Bool :=
  match op with
  | "==" => some (a = b)
  | "!=" => some (a ≠ b)
  | "<" => some (a < b)
  | "<=" => some (a ≤ b)
  | ">" => some (a > b)
  | ">=" => some (a ≥ b)
  | _ => none

/-- The rest of a test behind its first word. -/
def guard : M H ε Bool := do
  let i ← arrayIndex
  if i < 0 ∨ i ≥ numVars then fault (.varIndex i)
  let op ← word
  let w ← word
  let value ← if isSceneNumber w then pure (SceneHost.sceneNumber (← theHost)).toInt else number w
  match compare (SceneHost.var (← theHost) i.toNat).toInt value op with
  | some b => return b
  | none => fault (.comparison op)

/-- The first word of a test. -/
def guardWord : String := "GlobalMemory"

/-- Goes through the tests from a word on. Gives the first word that opens none, or
nothing when one fails. The first argument bounds the number of tests. -/
def guards : Nat → String → M H ε (Option String)
  | 0, w => return some w
  | fuel + 1, w => do
    if w ≠ guardWord then return some w
    if !(← guard) then return none
    guards fuel (← word)

/-- Chooses the object of a section. An object section starts it anew. -/
def selectObject (anew : Bool) : M H ε Unit := do
  let name ← word
  let object := SceneHost.findObject (← theHost) name
  modify fun s => { s with object }
  match object with
  | some i =>
    if anew then
      onObject i fun o => { o with vars := Vector.replicate numObjectVars 0, state := 0, statePrev := 0 }
  | none => pure ()

/-- The music: none, or a name and a track. -/
def music : M H ε Unit := do
  onHost (SceneHost.setTrack 0)
  let name ← word
  if name = "NULL" then onHost (SceneHost.setMusic none)
  else
    onHost (SceneHost.setMusic (some name))
    let track ← int
    onHost (SceneHost.setTrack track)

/-- A command outside of the sections. Gives false at the end of the description. -/
def command (w : String) : M H ε Bool := do
  if w = "End" then return false
  else if w = "Movies" then enter .movies
  else if w = "Scene" then enter .scenes
  else if w = "Screen" then
    let name ← word
    runHost (SceneHost.loadScreen name)
  else if isSceneNumber w then
    let n ← int
    onHost (SceneHost.setSceneNumber n.toInt16)
  else if w = "Midi" then music
  else if w = "Object:" then
    enter .object
    selectObject true
  else if w = "IfNewObject:" then
    enter .newObject
    selectObject false
  else if w = "Bag" then
    enter .bag
    let x ← int
    let y ← int
    onHost (SceneHost.setBagPosition x.toInt16 y.toInt16)
  else if w = "Box" then enter .boxes
  else fault (.unexpected w (← get).part)
  return true

/-- Drops what is loaded behind the animations that are kept. -/
def dropRest : M H ε Unit := do
  let kept := (← get).kept
  runHost (SceneHost.dropBehind ((kept : Int) - 1))

/-- A movie. As long as the movies are those that are loaded, nothing is done. -/
def movie (w : String) : M H ε Unit := do
  let s ← get
  if !s.loading then
    let loaded := SceneHost.animations s.host
    if (loaded[s.kept]?).any fun name => Text.sameName name w then
      modify fun s => { s with kept := s.kept + 1 }
      return
    if !loaded.isEmpty then dropRest
    onHost SceneHost.expectMovie
    modify fun s => { s with loading := true }
  runHost (SceneHost.loadMovie w)

def movieLine (w : String) : M H ε Unit := do
  if w = "MoviesEnd" then
    if !(← get).loading then dropRest
    enter .top
  else movie w

def bagLine (w : String) : M H ε Unit := do
  if w = "BagEnd" then enter .top
  else if SceneHost.hasBagEntry (← theHost) w then skipLine
  else
    let file ← word
    runHost (SceneHost.addBagEntry w file)

/-- The text with its ASCII letters in upper case. -/
def upper (s : String) : String := String.ofList (s.toList.map Char.toUpper)

def sceneLine (w : String) : M H ε Unit := do
  if w = "SceneEnd" then enter .top
  else
    let n ← number w
    let name ← word
    runHost (SceneHost.addNextScene ⟨n.toInt16, upper name⟩)

/-- The flip value of a word. -/
def mirrorOf? : String → Option Int16
  | "No" => some 0
  | "X" => some 1
  | "Y" => some 2
  | "XY" => some 3
  | _ => none

/-- One of the variables of an object. -/
def objectVar (i : Nat) : M H ε Unit := do
  let var ← arrayIndex
  let value ← int
  if var < 0 ∨ var ≥ numObjectVars then fault (.objectVarIndex var)
  onObject i fun o => { o with vars := o.vars.setIfInBounds var.toNat value.toInt16 }

/-- How an object starts. -/
def initMode (i : Nat) : M H ε Unit := do
  let w ← word
  if w = "NoInit" then onObject i fun o => { o with mode := 0 }
  else if w = "Simple" then onObject i fun o => { o with mode := 1 }
  else if w = "Random" then
    onObject i fun o => { o with mode := 2 }
    let n ← int
    onObject i fun o => { o with modeRandom := n.toInt16 }
  else if w = "Put" then onObject i fun o => { o with mode := 3 }
  else fault (.initMode w)

/-- An object starts the way it was noted down. -/
def loadStatus (i : Nat) : M H ε Unit := do
  let n ← arrayIndex
  let h ← theHost
  match (if n < 0 then none else SceneHost.status? h n.toNat) with
  | none => fault (.statusIndex n)
  | some s => onObject i fun o => { o with
      xInit := s.x
      yInit := s.y
      zInit := s.z
      motionNum := s.motionNum
      motionFrameNum := s.frameNum
      flipInit := s.flip }

/-- A line about an object. -/
def objectProperty (i : Nat) (w : String) : M H ε Unit := do
  if w = "Class" then
    let name ← word
    onObject i fun o => { o with className := name }
  else if w = "Memory" then objectVar i
  else if w = "Coord" then
    let (x, y) ← coord
    onObject i fun o => { o with xInit := x, yInit := y }
  else if w = "AddCoordX" then
    let n ← int
    onObject i fun o => { o with xInit := o.xInit + n.toInt16 }
  else if w = "AddCoordY" then
    let n ← int
    onObject i fun o => { o with yInit := o.yInit + n.toInt16 }
  else if w = "CoordX" then
    let n ← int
    onObject i fun o => { o with xInit := n.toInt16 }
  else if w = "CoordY" then
    let n ← int
    onObject i fun o => { o with yInit := n.toInt16 }
  else if w = "Depth" then
    let n ← int
    onObject i fun o => { o with zInit := n.toInt16 }
  else if w = "Move" then
    let n ← int
    onObject i fun o => { o with motionNum := (n - 1).toInt16, motionFrameNum := 0 }
  else if w = "Cel" then
    let n ← int
    onObject i fun o => { o with motionNum := (n - 1).toInt16 }
    let m ← int
    onObject i fun o => { o with motionFrameNum := (m - 1).toInt16 }
  else if w = "Mirror" then
    let m ← word
    match mirrorOf? m with
    | some flip => onObject i fun o => { o with flipInit := flip }
    | none => fault (.mirror m)
  else if w = "Init" then initMode i
  else if w = "LoadStatus" then loadStatus i
  else fault (.unexpected w (← get).part)

/-- Objects of animations that were kept are not new. -/
def dropOldObject : M H ε Unit := modify fun s =>
  if s.part = .newObject then
    match s.object with
    | some i =>
      if (SceneHost.objectAnimation s.host i).any fun a => a < (s.kept : Int) then { s with object := none } else s
    | none => s
  else s

def objectLine (w : String) : M H ε Unit := do
  if w = "ObjectEnd" then enter .top
  else
    dropOldObject
    match (← get).object with
    | none => skipLine
    | some i => objectProperty i w

/-- The colours that a covering box leaves out: their first one and their number. -/
def boxColors (b : SceneBox) : M H ε SceneBox := do
  let z ← int
  let start ← int
  let stop ← int
  if ¬(0 ≤ start ∧ start ≤ 256) ∨ ¬(0 ≤ stop ∧ stop ≤ 256) ∨ start + stop > 256 then
    fault (.boxColors start stop)
  return { b with state := 2, z := z.toInt16, startColor := start.toInt16, endColor := stop.toInt16 }

/-- The kind of a box. What it does not say stays as it was in the slot. -/
def boxKind (b : SceneBox) : M H ε SceneBox := do
  let w ← word
  if w = "Disable" then return { b with state := 0 }
  else if w = "Enable" then return { b with state := 1 }
  else if w = "Mix" then boxColors b
  else fault (.unexpected w (← get).part)

/-- A box of the group with the given number. -/
def addBox (w : String) : M H ε Unit := do
  let group := Word.pred (← number w)
  if group < 0 ∨ group ≥ numBoxGroups then fault (.boxIndex group 0)
  let index := SceneHost.boxCount (← theHost) group.toNat
  if index ≥ boxesPerGroup then fault (.boxIndex group index)
  let b ← boxKind (SceneHost.box (← theHost) group.toNat index)
  let (x₁, y₁) ← coord
  let (x₂, y₂) ← coord
  onHost (SceneHost.pushBox group.toNat { b with x₁, y₁, x₂, y₂ })

def boxLine (w : String) : M H ε Unit := do
  if w = "BoxEnd" then enter .top else addBox w

/-- A line of a section from its first word on. Gives false at the end of the description. -/
def lineOf (part : Section) (w : String) : M H ε Bool := do
  match part with
  | .top => command w
  | .movies => movieLine w; return true
  | .bag => bagLine w; return true
  | .scenes => sceneLine w; return true
  | .object => objectLine w; return true
  | .newObject => objectLine w; return true
  | .boxes => boxLine w; return true

/-- A line of the section that it is in. -/
def line (w : String) : M H ε Bool := do lineOf (← get).part w

/-- A line with the tests in front of it; the first argument bounds their number. -/
def statement (fuel : Nat) (w : String) : M H ε Bool := do
  if w = guardWord then
    match ← guards fuel w with
    | none =>
      skipLine
      return true
    | some w =>
      if w ≠ "->" then fault (.missingThen w)
      match ← onTokens Tokenizer.word? with
      | none => return false
      | some w => line w
  else line w

/-- All lines; the first argument bounds their number and that of the tests. -/
def lines : Nat → M H ε Unit
  | 0 => pure ()
  | fuel + 1 => do
    match ← onTokens Tokenizer.word? with
    | none => return
    | some w => if ← statement (fuel + 1) w then lines fuel

/-- Reads a description. Every word takes a character or ends the text, so that there
are not more words than characters and one. -/
def parse (text : List Char) : EStateM ε H Unit := fun h =>
  match lines (text.length + 1) { tokens := Tokenizer.ofText text, host := SceneHost.start h } with
  | .ok () s => .ok () s.host
  | .error e s => .error e s.host

end Description

end Adventure
