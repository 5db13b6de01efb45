import Adventure.Game.Start
import Adventure.Proofs.Resource.InterfaceSprites

/-! What a game needs to start: a first scene, a picture for the window of the bag, and enough
sprites for the interface. Zeros are sprites of one point each. -/

namespace Adventure

namespace Game

theorem readInterface_ok {data : DataDir} {window sprites : ByteArray} {b : Background} {s : InterfaceSprites}
    (hwindow : data.read windowFile = .ok window) (hb : Background.decode window = .ok b)
    (hsprites : data.read spritesFile = .ok sprites) (hs : InterfaceSprites.decode sprites true = .ok s) :
    readInterface data true = .ok { sprites := s, window := b.surface, banner := none } := by
  simp only [readInterface, hwindow, hsprites, hb, hs, GameError.wrap, bind, Except.bind, if_true, pure, Except.pure]

/-- A game that starts with this scene and this interface. -/
def begun (settings : Settings) (data : DataDir) (saves : SaveFolder) (stage : Stage) (seed : UInt16) (firstScene : String)
    (ui : Interface) : Game :=
  restarted {
    settings, data, saves
    stage := { stage with mixer := stage.mixer.setVolume settings.soundVolume }.startAudio
    random := Random.ofSeed seed
    demo := settings.demo.getD (data.contains demoScene)
    firstScene, ui }

/-- With a first scene and an interface a game starts. -/
theorem start_ok {settings : Settings} {data : DataDir} (saves : SaveFolder) (stage : Stage) (seed : UInt16)
    {scene : String} {ui : Interface} (hscene : firstScenes.find? data.contains = some scene)
    (hui : readInterface data (settings.demo.getD (data.contains demoScene)) = .ok ui) :
    start settings data saves stage seed = .ok (begun settings data saves stage seed scene ui) := by
  rw [start, hscene]
  dsimp only
  rw [hui]
  rfl

/-- A game that starts has a first scene. -/
theorem eq_begun {settings : Settings} {data : DataDir} {saves : SaveFolder} {stage : Stage} {seed : UInt16} {g : Game}
    (h : start settings data saves stage seed = .ok g) :
    ∃ scene ∈ firstScenes, ∃ ui, g = begun settings data saves stage seed scene ui := by
  unfold start at h
  split at h
  · cases h
  · rename_i scene hscene
    obtain ⟨ui, -, h⟩ := except_bind_eq_ok.mp h
    cases h
    exact ⟨scene, List.mem_of_find?_eq_some hscene, ui, rfl⟩

/-- A game starts with its files and empty tables. -/
theorem start_fresh {settings : Settings} {data : DataDir} {saves : SaveFolder} {stage : Stage} {seed : UInt16}
    {g : Game} (h : start settings data saves stage seed = .ok g) : g.data = data ∧ g.tables = {} := by
  obtain ⟨_, -, _, rfl⟩ := eq_begun h
  exact ⟨rfl, rfl⟩

/-! ### A demo -/

/-- A window of one point. -/
def demoWindow : ByteArray :=
  Bytes.ofList [0x42, 0x4D, 26, 0, 0, 0, 0, 0, 0, 0, 0, 0, 0, 0, 0, 0, 0, 0, 1, 0, 0, 0, 1, 0, 0, 0]

/-- A packed buffer of 855 zeros, which are 171 sprites of one point. -/
def demoSprites : ByteArray := Bytes.ofList [0, 0, 0x57, 3, 0, 0, 0, 0, 0, 0, 0, 0, 0]

/-- A movie with nothing of its own but its sprites. -/
def demoMovie : ByteArray :=
  Bytes.ofList [0x4D, 0x35, 6, 0, 0x61, 0x2E, 0x73, 0x70, 0x72, 0, 1, 0, 0, 0, 0, 4, 0, 0, 0]

theorem decode_demoSprites : ∃ s, InterfaceSprites.decode demoSprites true = .ok s := by
  have hpoints := InterfaceSprites.startsWith_points (n := 171) (k := 0) (Bytes.list_pushN ByteArray.empty 0 855)
  have hdemo : demoSprites = InterfaceSprites.zeros 855 := rfl
  rw [hdemo, InterfaceSprites.decode_eq (InterfaceSprites.unpack_zeros (by decide))]
  exact InterfaceSprites.exists_ofDecoded List.length_replicate hpoints

/-- A game of the demo, on a stage of its own. -/
def startDemo (data : DataDir) : Except GameError Game :=
  start { demo := some true } data ⟨".", some []⟩ (Stage.ofRate 22050) 1

/-- The window and the sprites are all that the interface of a demo needs. -/
theorem readInterface_demo : ∃ ui, ∀ data : DataDir, data.read windowFile = .ok demoWindow →
    data.read spritesFile = .ok demoSprites → readInterface data true = .ok ui := by
  have hpicture : (Background.decode demoWindow).isOk := by decide +kernel
  obtain ⟨s, hs⟩ := decode_demoSprites
  cases hb : Background.decode demoWindow with
  | error e => rw [hb] at hpicture; cases hpicture
  | ok b => exact ⟨_, fun _ hwindow hsprites => readInterface_ok hwindow hb hsprites hs⟩

noncomputable def demoInterface : Interface := readInterface_demo.choose

/-- A game of the demo that starts with this scene. -/
noncomputable def demoGame (data : DataDir) (scene : String) : Game :=
  begun { demo := some true } data ⟨".", some []⟩ (Stage.ofRate 22050) 1 scene demoInterface

/-- With a first scene, the window and the sprites a demo starts. -/
theorem startDemo_eq {data : DataDir} {scene : String} (hscene : firstScenes.find? data.contains = some scene)
    (hwindow : data.read windowFile = .ok demoWindow) (hsprites : data.read spritesFile = .ok demoSprites) :
    startDemo data = .ok (demoGame data scene) :=
  start_ok _ _ _ hscene (readInterface_demo.choose_spec data hwindow hsprites)

theorem startDemo_ok {data : DataDir} {scene : String} (hscene : firstScenes.find? data.contains = some scene)
    (hwindow : data.read windowFile = .ok demoWindow) (hsprites : data.read spritesFile = .ok demoSprites) :
    ∃ g, startDemo data = .ok g := ⟨_, startDemo_eq hscene hwindow hsprites⟩

end Game

end Adventure
