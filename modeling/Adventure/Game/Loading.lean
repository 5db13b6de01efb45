import Adventure.Game.Sound
import Adventure.Resource.Movie
import Adventure.Scene.Description
import Adventure.Text.Comments

/-! Loading scenes: a description puts backgrounds and movies into the tables. -/

namespace Adventure

namespace SceneTables

/-- Takes the next slot of a box's group into use. -/
def addBox (b : MovieBox) : M Unit := do
  if numBoxGroups ≤ b.group then throw (.index .boxes b.group)
  let n := (← get).boxCount b.group
  if boxesPerGroup ≤ n then throw (.full .boxes)
  modify fun t =>
    setBoxCount b.group (n + 1)
      (t.modifyBox b.group n fun old => { old with state := b.state, x₁ := b.x₁, y₁ := b.y₁, x₂ := b.x₂, y₂ := b.y₂ })

/-- A slot with what a movie says of its object; the rest of the slot stays. -/
def ofMovieObject (o : MovieObject) (motionInit : Int16) (slot : SceneObject) : SceneObject :=
  { slot with
    name := o.name
    className := o.className
    motionFrameNum := o.motionFrameNum
    motionNum := o.motionNum
    flipInit := o.flipInit
    zInit := o.zInit
    xInit := o.xInit
    yInit := o.yInit
    mode := o.mode
    modeRandom := if o.mode = 2 then o.modeRandom else slot.modeRandom
    statePrev := 0
    state := 0
    motionInit
    vars := o.vars.foldl (fun vars v => vars.setIfInBounds v.1 v.2) slot.vars }

/-- Takes the next slot into use for an object whose name is new. -/
def addObject (motionInit : Int16) (o : MovieObject) : M Unit := do
  let t ← get
  if maxObjects ≤ t.objectsCount then throw (.full .objects)
  if (t.findObject? o.name).isSome then throw (.resource (.duplicateObject o.name))
  modify fun t =>
    { t.modifyObject t.objectsCount (ofMovieObject o motionInit) with objectsCount := t.objectsCount + 1 }

def addObjects (motionInit : Int16) : List MovieObject → M Unit
  | [] => pure ()
  | o :: r => do
    addObject motionInit o
    addObjects motionInit r

def addBoxes : List MovieBox → M Unit
  | [] => pure ()
  | b :: r => do
    addBox b
    addBoxes r

def addSounds (names : List String) : M Unit := do
  if maxSounds < (← get).sounds.size + names.length then throw (.full .sounds)
  modify fun t => { t with sounds := t.sounds ++ names.toArray }

def addMotion (anim : Nat) (t : SceneTables) (frames : List SpriteFrame) : SceneTables :=
  { t with
    motions := t.motions.push
      ⟨Int16.ofNat t.frames.size, Int16.ofNat frames.length, Int16.ofNat anim⟩
    frames := t.frames ++ frames.toArray }

/-- Appends the motions of a bank and their frames. -/
def addBank (anim : Nat) (bank : SpriteBank) : M Unit := do
  let t ← get
  if maxMotions < t.motions.size + bank.motions.length then throw (.full .motions)
  if maxFrames < t.frames.size + bank.framesCount then throw (.full .frames)
  modify fun t => bank.motions.foldl (addMotion anim) t

/-- Empties the tables that the first movie of a scene starts. -/
def startMovies (t : SceneTables) : SceneTables :=
  { t with
    frames := #[]
    motions := #[]
    objectsCount := 0
    objects := t.objects.map fun o => { o with vars := Vector.replicate numObjectVars 0 } }

end SceneTables

namespace Game

/-- Loads the background and the colours of the scene. -/
def loadBackground (name : String) : M Unit := do
  let b ← readResource Background.decode name
  modify fun g => { g with
    palette := b.palette
    frame := b.surface
    background := b.surface
    tables := { g.tables with loaded := .background } }

/-- The first movie of a scene brings the background too, and finds empty tables. -/
def beginMovies (background : String) : M Unit := do
  if (← get).tables.loaded = .nothing then
    loadBackground background
    onTables SceneTables.startMovies

/-- Puts a movie and its sprite bank behind what is there. -/
def putMovie (name : String) (movie : Movie) : M Unit := do
  let t := (← get).tables
  withTables do
    SceneTables.addSounds movie.sounds
    SceneTables.addBoxes movie.boxes
    SceneTables.addObjects (Int16.ofNat t.motions.size) movie.objects
  let bank ← readResource SpriteBank.decode (Movie.bankPath name movie.bankName)
  withTables (SceneTables.addBank t.animations.size bank)
  onTables fun u => { u with
    animations := u.animations.push {
      name := Text.lower name
      firstMotion := Int16.ofNat t.motions.size
      motionsCount := Int16.ofNat bank.motions.length
      firstObject := Int16.ofNat t.objectsCount
      objectsCount := Int16.ofNat (u.objectsCount - t.objectsCount)
      firstSound := Int16.ofNat t.sounds.size
      soundsCount := Int16.ofNat movie.sounds.length
      script := movie.script
      unused := movie.unused }
    loaded := .movies }

/-- Appends a movie and its sprite bank as an animation. -/
def loadMovie (name : String) : M Unit := do
  let movie ← readResource Movie.decode name
  if maxAnimations ≤ (← get).tables.animations.size then throw (.full .animations)
  beginMovies movie.backgroundName
  putMovie name movie

/-- Loads the background that a description asks for. -/
def loadScreen (name : String) : M Unit := do
  onTables SceneTables.clearBoxes
  loadBackground name
  onTables fun t => { t with loaded := if t.objectsCount = 0 then .background else .movies }

/-- Drops what belongs to the animations behind the given one, and silences the scene. -/
def dropBehind (anim : Int) : M Unit := do
  let t ← ofExcept ((← get).tables.dropBehind anim)
  onTables fun _ => t
  stopSound

/-- The music that a description asks for. Music that is on already goes on. -/
def setMusic : Option String → Game → Game
  | none, g => { g with music := { g.music with file := none } }
  | some name, g =>
    let g := if name = g.music.name ∨ name.isEmpty then g
      else { g with music := { g.music with file := (track? name).map (trackFile g.settings) } }
    { g with music := { g.music with name } }

def addBagEntry (name file : String) : M Unit := do
  if maxBag ≤ (← get).bag.entries.length then throw (.scene .tooManyBagObjects)
  let data ← readFile file
  onBag fun b => { b with entries := b.entries ++ [⟨name, data⟩] }

def addNextScene (s : NextScene) : M Unit := do
  if maxNextScenes ≤ (← get).tables.nextScenes.length then throw (.scene .tooManyNextScenes)
  onTables fun t => { t with nextScenes := t.nextScenes ++ [s] }

instance : SceneHost Game GameError where
  fault := .scene
  start g := { g with sceneNumber := 0, defaultVars := g.vars }
  var g i := g.vars[i]?.getD 0
  sceneNumber g := g.sceneNumber
  setSceneNumber n g := { g with sceneNumber := n }
  animations g := g.tables.animations.toList.map (·.name)
  dropBehind := dropBehind
  expectMovie g := { g with tables := { g.tables with loaded := .background } }
  loadMovie := loadMovie
  loadScreen := loadScreen
  setMusic := setMusic
  setTrack n g := { g with music := { g.music with track := n } }
  findObject g name := g.tables.activeObjects.findIdx? fun o => Text.sameName o.name name
  modifyObject i f g := { g with tables := g.tables.modifyObject i f }
  objectAnimation g i := g.tables.objectAnimation? i
  status? g i := g.tables.statuses[i]?
  setBagPosition x y g := { g with bag := { g.bag with x, y } }
  hasBagEntry g name := (g.bag.find? name).isSome
  addBagEntry := addBagEntry
  addNextScene := addNextScene
  boxCount g i := g.tables.boxCount i
  box g group i := (g.tables.findBox? group i).getD {}
  pushBox group b g := { g with
    tables := SceneTables.setBoxCount group (g.tables.boxCount group + 1)
      (g.tables.modifyBox group (g.tables.boxCount group) fun _ => b) }

/-- Reads the description of a scene and does what it says. -/
def readScene (name : String) : M Unit := do
  let file ← readFile name
  Description.parse (Text.latin1 (Text.stripComments file.toList))

end Game

end Adventure
