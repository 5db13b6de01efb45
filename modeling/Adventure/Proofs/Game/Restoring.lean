import Adventure.Proofs.Game.Reachable
import Adventure.Proofs.Game.Slots

/-! A saved game is loaded in two steps. A frame takes its variables and asks for its scene; a later
frame reads the scene and puts the rest in place. Between the two the frame goes on as usual: as long
as it leaves the variables and the request alone, it is the saved game that comes back. -/

namespace Adventure.Game

/-! ### What loading a scene leaves alone -/

/-- A part of a game in which nothing is seen of what loading movies changes. -/
def Unstocked {τ : Type} (f : Game → τ) : Prop :=
  ∀ (g : Game) (stage : Stage) (palette : ByteArray) (background frame : Surface) (tables : SceneTables) (music : Music)
    (sceneNumber : Int16), f { g with stage, palette, background, frame, tables, music, sceneNumber } = f g

namespace Unstocked

variable {α τ : Type} {f : Game → τ} (hf : Unstocked f)

theorem lift (e : Except GameError α) : Leaves f (ofExcept e : M α) := (Chains.same f).lift e

theorem readFile (name : String) : Leaves f (readFile name) := (Chains.same f).look fun _ => lift _

theorem readResource (decode : ByteArray → Except ResourceError α) (name : String) : Leaves f (readResource decode name) :=
  (Chains.same f).bind (readFile name) fun _ => lift _

include hf

theorem onTables (h : SceneTables → SceneTables) : Leaves f (onTables h) := fun g => hf g _ _ _ _ _ _ _

theorem withTables (m : SceneTables.M α) : Leaves f (withTables m) := by
  intro g
  simp only [Leads, Game.withTables]
  cases m g.tables
  · exact hf g _ _ _ _ _ _ _
  · exact hf g _ _ _ _ _ _ _

theorem loadBackground (name : String) : Leaves f (loadBackground name) :=
  (Chains.same f).bind (readResource _ _) fun _ g => hf g _ _ _ _ _ _ _

theorem beginMovies (background : String) : Leaves f (beginMovies background) :=
  have hC := Chains.same f
  hC.look fun _ => .ite (hC.bind (hf.loadBackground _) fun _ => hf.onTables _) (hC.value _)

theorem putMovie (name : String) (movie : Movie) : Leaves f (putMovie name movie) :=
  have hC := Chains.same f
  hC.look fun _ => hC.bind (hf.withTables _) fun _ => hC.bind (readResource _ _) fun _ => hC.bind (hf.withTables _) fun _ =>
    hf.onTables _

theorem loadMovie (name : String) : Leaves f (loadMovie name) := by
  have hC := Chains.same f
  have put (movie : Movie) : Leaves f (do Game.beginMovies movie.backgroundName; Game.putMovie name movie) :=
    hC.bind (hf.beginMovies _) fun _ => hf.putMovie _ _
  exact hC.bind (readResource _ _) fun movie => hC.look fun _ => .ite (hC.bind (hC.fault _) fun _ => put movie) (put movie)

theorem loadScreen (name : String) : Leaves f (loadScreen name) :=
  have hC := Chains.same f
  hC.bind (hf.onTables _) fun _ => hC.bind (hf.loadBackground _) fun _ => hf.onTables _

theorem dropBehind (anim : Int) : Leaves f (dropBehind anim) :=
  have hC := Chains.same f
  hC.look fun _ => hC.bind (lift _) fun _ => hC.bind (hf.onTables _) fun _ g => hf g _ _ _ _ _ _ _

theorem addNextScene (s : NextScene) : Leaves f (addNextScene s) :=
  have hC := Chains.same f
  hC.look fun _ => .ite (hC.bind (hC.fault _) fun _ => hf.onTables _) (hf.onTables _)

theorem setMusic (name : Option String) (g : Game) : f (setMusic name g) = f g := by
  cases name with
  | none => exact hf g _ _ _ _ _ _ _
  | some name =>
    simp only [Game.setMusic]
    split
    · exact hf g _ _ _ _ _ _ _
    · exact hf g _ _ _ _ _ _ _

end Unstocked

/-- A part of a game in which nothing is seen of what loading a scene changes. -/
def Unloaded {τ : Type} (f : Game → τ) : Prop :=
  ∀ (g : Game) (stage : Stage) (palette : ByteArray) (background frame : Surface) (tables : SceneTables) (bag : Bag)
    (music : Music) (sceneNumber : Int16),
    f { g with stage, palette, background, frame, tables, bag, music, sceneNumber } = f g

namespace Unloaded

variable {τ : Type} {f : Game → τ} (hf : Unloaded f)
include hf

theorem unstocked : Unstocked f := fun g _ _ _ _ _ _ _ => hf g _ _ _ _ _ _ _ _

theorem addBagEntry (name file : String) : Leaves f (addBagEntry name file) := by
  have hC := Chains.same f
  have add : Leaves f (do let data ← Game.readFile file; onBag fun b => { b with entries := b.entries ++ [⟨name, data⟩] }) :=
    hC.bind (Unstocked.readFile _) fun _ g => hf g _ _ _ _ _ _ _ _
  exact hC.look fun _ => .ite (hC.bind (hC.fault _) fun _ => add) add

theorem hostActs : Description.HostActs (H := Game) (fun g g' => f g' = f g) fun g g' => f g' = f g where
  chains := Chains.same f
  setSceneNumber _ g := hf g _ _ _ _ _ _ _ _
  dropBehind := hf.unstocked.dropBehind
  expectMovie g := hf g _ _ _ _ _ _ _ _
  loadMovie := hf.unstocked.loadMovie
  loadScreen := hf.unstocked.loadScreen
  setMusic := hf.unstocked.setMusic
  setTrack _ g := hf g _ _ _ _ _ _ _ _
  modifyObject _ _ g _ := hf g _ _ _ _ _ _ _ _
  setClass _ _ g := hf g _ _ _ _ _ _ _ _
  setBagPosition _ _ g := hf g _ _ _ _ _ _ _ _
  addBagEntry name file g _ := hf.addBagEntry name file g
  addNextScene := hf.unstocked.addNextScene
  pushBox _ _ g _ := hf g _ _ _ _ _ _ _ _

theorem readScene (hstart : ∀ g, f (SceneHost.start g : Game) = f g) (name : String) : Leaves f (readScene name) :=
  (Chains.same f).bind (Unstocked.readFile name) fun _ => Description.parse_within hf.hostActs hstart _

end Unloaded

/-- What a scene starts with, and the saved game that waits for it. -/
structure Outset where
  vars : Vars
  defaultVars : Vars
  restoring : Bool
  saves : SaveFolder
  slot : Nat

def outset (g : Game) : Outset := ⟨g.vars, g.defaultVars, g.restoring, g.saves, g.slot⟩

theorem unloaded_outset : Unloaded outset := fun _ _ _ _ _ _ _ _ _ => rfl

/-! ### The request -/

variable {g g' k : Game} {d : ByteArray} {header : SaveHeader}

/-- The file of a saved game, and what stands at its start. -/
structure SavedScene (k : Game) (d : ByteArray) (header : SaveHeader) : Prop where
  write : k.snapshot.write = .ok d
  reads : SaveState.readHeader d = .ok header

theorem SavedScene.defaultVars (h : SavedScene k d header) : header.defaultVars = k.defaultVars.toList := by
  obtain ⟨-, rfl⟩ := (SaveState.write_ok_iff k.snapshot).mp h.write
  exact SaveState.defaultVars_of_readHeader (Nat.le_of_eq k.defaultVars.length_toList) h.reads

/-- The scene of a saved game is asked for, with the variables that it starts with. -/
structure AsksFor (k : Game) (header : SaveHeader) (g : Game) : Prop where
  vars : g.vars = k.defaultVars
  nextFile : g.nextFile = header.sceneName
  switching : g.switching = true
  restoring : g.restoring = true

/-- A game that has asked for the scene of a saved game. -/
def asking (header : SaveHeader) (g : Game) : Game :=
  { g with
    stage := { g.stage with input := { g.stage.input with load := false } }
    music := { g.music with file := none }
    vars := overwrite g.vars header.defaultVars
    nextFile := header.sceneName
    switching := true
    restoring := true }

theorem SavedScene.asksFor (h : SavedScene k d header) (g : Game) : AsksFor k header (asking header g) where
  vars := by
    change overwrite g.vars header.defaultVars = k.defaultVars
    rw [h.defaultVars, overwrite_toList]
  nextFile := rfl
  switching := rfl
  restoring := rfl

theorem takeLoad_ok {i : Input} (hi : i.load = true) (hslot : g.saves.readSlot? g.slot = some d)
    (hd : SaveState.readHeader d = .ok header) : takeLoad i g = .ok () (asking header g) := by
  let asked : Game := { g with stage := { g.stage with input := { g.stage.input with load := false } } }
  have hheader : loadHeader g.slot asked = .ok (some d) _ := loadHeader_ok hslot hd
  have hrequest : requestSlot g.slot asked = .ok () _ := bind_of_ok hheader
  have htaken : onInput (fun i => { i with load := false }) g = .ok () asked := rfl
  have hlook : (get : M Game) asked = .ok asked asked := rfl
  unfold takeLoad
  rw [if_pos hi, bind_of_ok htaken, bind_of_ok hlook]
  exact bind_of_ok hrequest

/-- What saved games do not bring along. -/
def unsaved (g : Game) : Vars × Bool × Nat := (g.defaultVars, g.lost, g.slot)

theorem chains_unsaved : Chains (fun g g' : Game => g'.unsaved = g.unsaved) fun g g' => g'.unsaved = g.unsaved :=
  Chains.same unsaved

theorem loadHeader_unsaved (slot : Nat) : Leaves unsaved (loadHeader slot) := by
  refine chains_unsaved.bind (fun _ => rfl) fun _ => chains_unsaved.look fun g => ?_
  split
  · exact chains_unsaved.value _
  · exact chains_unsaved.bind (chains_unsaved.lift _) fun _ => chains_unsaved.bind (Leaves.modify fun _ => by simp only [unsaved]) fun _ =>
      chains_unsaved.value _

theorem restoreSlot_unsaved (slot : Nat) : Leaves unsaved (restoreSlot slot) := by
  refine chains_unsaved.bind (loadHeader_unsaved slot) fun data => ?_
  split
  · exact chains_unsaved.value _
  · exact chains_unsaved.bind (chains_unsaved.lift _) fun s => Leaves.modify fun g => by simp only [restore, unsaved]

theorem takeLoad_unsaved (i : Input) : Leaves unsaved (takeLoad i) := by
  have request (slot : Nat) : Leaves unsaved (requestSlot slot) :=
    chains_unsaved.bind (loadHeader_unsaved slot) fun _ => .ite (Leaves.modify fun _ => rfl) (chains_unsaved.value _)
  exact .ite (chains_unsaved.bind (Leaves.modify fun _ => rfl) fun _ => chains_unsaved.look fun _ =>
    chains_unsaved.bind (request _) fun _ => Leaves.modify fun _ => rfl) (chains_unsaved.value _)

theorem takeSave_leads (i : Input) (g : Game) :
    Leads (takeSave i) g (fun _ g' => ∃ stage saves, g' = { g with stage, saves }) fun _ => True := by
  unfold takeSave
  split
  · refine Leads.bind (m := onInput _) (Leads.look ((saveSlot_leads _ _).mono (fun _ g' h => ?_) fun _ _ => trivial))
    obtain ⟨_, saves, -, -, rfl⟩ := h
    exact ⟨_, saves, rfl⟩
  · exact ⟨g.stage, g.saves, rfl⟩

/-- The keys that are taken before the one that loads. -/
theorem takeFirst_leaves (i : Input) :
    Leaves (fun g => (g.lost, g.saves)) (modify fun g => playKeys { g with keys := setKeys i g.keys } : M Unit) ∧
      Leaves (fun g => (g.lost, g.saves)) (takeTab i) ∧ Leaves (fun g => (g.lost, g.saves)) (takeCtrl i) ∧
        Leaves (fun g => (g.lost, g.saves)) (changeSlot i.slotChange) := by
  have hC := Chains.same fun g : Game => (g.lost, g.saves)
  refine ⟨fun g => ?_, ?_, ?_, fun _ => rfl⟩
  · change ((playKeys { g with keys := setKeys i g.keys }).lost, (playKeys { g with keys := setKeys i g.keys }).saves) = _
    unfold playKeys
    split
    · rfl
    · split <;> rfl
  · exact .ite (hC.bind (fun _ => rfl) fun _ _ => rfl) (hC.value _)
  · exact .ite (hC.bind (fun _ => rfl) fun _ _ => rfl) (hC.value _)

/-- A game that is not lost does not start anew. -/
theorem takeRestart_ok (h : g.lost = false) : takeRestart g = .ok () g := by
  change (if g.lost && g.stage.input.enter then _ else pure () : M Unit) g = _
  rw [h]
  rfl

/-- A frame of a game that is not lost in which the player loads the saved game of the slot: `h` is
the game once the keys are taken, and `g'` the game at the end of the frame. -/
structure LoadFrame (d : ByteArray) (g h g' : Game) : Prop where
  goesOn : g.lost = false
  load : g.stage.input.load = true
  keys : takeKeys g = .ok () h
  slot : g.saves.readSlot? h.slot = some d
  rest : frameBehindKeys h = .ok () g'

/-- When the player loads a saved game, the game asks for its scene once the keys are taken. -/
theorem SavedScene.taken {h : Game} (hk : SavedScene k d header) (hload : LoadFrame d g h g') : AsksFor k header h := by
  obtain ⟨hlost, hload, hkeys, hslot, -⟩ := hload
  obtain ⟨i, _, hi, hkeys⟩ := bind_eq_ok.mp hkeys
  cases hi
  obtain ⟨hplay, htab, hctrl, hchange⟩ := takeFirst_leaves g.stage.input
  obtain ⟨_, g₁, h₁, hkeys⟩ := bind_eq_ok.mp hkeys
  obtain ⟨_, g₂, h₂, hkeys⟩ := bind_eq_ok.mp hkeys
  obtain ⟨_, g₃, h₃, hkeys⟩ := bind_eq_ok.mp hkeys
  have hfirst := ((hctrl g₂).of_ok h₃).trans (((htab g₁).of_ok h₂).trans ((hplay g).of_ok h₁))
  obtain ⟨g₄, hsame, hkeys⟩ : ∃ g₄ : Game, (g₄.lost, g₄.saves) = (g.lost, g.saves) ∧
      (do takeLoad g.stage.input; takeSave g.stage.input; takeRestart : M Unit) g₄ = .ok () h := by
    split at hkeys
    · obtain ⟨_, g₄, h₄, hkeys⟩ := bind_eq_ok.mp hkeys
      exact ⟨g₄, ((hchange g₃).of_ok h₄).trans hfirst, hkeys⟩
    · exact ⟨g₃, hfirst, hkeys⟩
  obtain ⟨_, g₅, h₅, hkeys⟩ := bind_eq_ok.mp hkeys
  obtain ⟨_, g₆, h₆, hkeys⟩ := bind_eq_ok.mp hkeys
  obtain ⟨hlost₄, hsaves⟩ := Prod.ext_iff.mp hsame
  obtain ⟨-, hkept⟩ := Prod.ext_iff.mp ((takeLoad_unsaved _ g₄).of_ok h₅)
  obtain ⟨hlost₅, hslot₅⟩ := Prod.ext_iff.mp hkept
  obtain ⟨stage, saves, rfl⟩ := (takeSave_leads _ g₅).of_ok h₆
  have hlost₆ : ({ g₅ with stage, saves } : Game).lost = false := hlost₅.trans (hlost₄.trans hlost)
  cases hkeys.symm.trans (takeRestart_ok hlost₆)
  have hfile : g₄.saves.readSlot? g₄.slot = some d := by
    rw [show g₄.saves = g.saves from hsaves, ← show g₅.slot = g₄.slot from hslot₅]
    exact hslot
  cases h₅.symm.trans (takeLoad_ok hload hfile hk.reads)
  obtain ⟨hvars, hnext, hswitching, hrestoring⟩ := hk.asksFor g₄
  exact ⟨hvars, hnext, hswitching, hrestoring⟩

/-! ### Until the scene is entered -/

/-- A saved game that is waited for is still waited for, in the same slot. -/
structure Waits (g g' : Game) : Prop where
  switching : g.switching = true → g'.switching = true
  restoring : g'.restoring = g.restoring
  saves : g'.saves = g.saves
  slot : g'.slot = g.slot

theorem Waits.of_ground (h : g'.ground = g.ground) : Waits g g' where
  switching hg := (congrArg Ground.switching h).trans hg
  restoring := congrArg Ground.restoring h
  saves := congrArg Ground.saves h
  slot := congrArg Ground.slot h

theorem Waits.trans {g'' : Game} (h : Waits g g') (h' : Waits g' g'') : Waits g g'' :=
  ⟨h'.switching ∘ h.switching, h'.restoring.trans h.restoring, h'.saves.trans h.saves, h'.slot.trans h.slot⟩

theorem waits_dropBehind (anim : Int) : Within Waits (fun _ _ => True) (dropBehind anim) := by
  refine fun g => (dropBehind_leads anim g).mono (fun _ g' h => ?_) fun _ _ => trivial
  obtain ⟨s, hg, -⟩ := h
  exact ⟨(congrArg Ground.switching hg).trans, congrArg Ground.restoring hg, congrArg Ground.saves hg, congrArg Ground.slot hg⟩

/-- Scripts can ask for other scenes, and the saved game is waited for all the same. -/
theorem waits_frameBehindKeys : Within Waits (fun _ _ => True) frameBehindKeys := by
  have hC : Chains Waits fun _ _ => True := ⟨fun _ => .of_ground rfl, fun _ => trivial, Waits.trans, fun _ _ => trivial⟩
  have acts : FrameActs Waits fun _ _ => True :=
    .of_ground hC .of_ground (fun _ _ => ⟨fun _ => rfl, rfl, rfl, rfl⟩) waits_dropBehind
  exact acts.frameBehindKeys hC.ends fun g => (Stays.beginDialogue g).mono (fun _ _ => .of_ground) fun _ _ => trivial

/-- Frames of the bag and of dialogues go by while the player's input comes in. -/
inductive Idles : Game → Game → Prop
  | none (g : Game) : Idles g g
  | input {g g' : Game} (h : Idles g g') (stage : Stage) : Idles g { g' with stage }
  | frame {g g' g'' : Game} {b : Bool} (h : Idles g g') (hmode : g'.mode ≠ .game) (hframe : runFrame g' = .ok b g'') :
    Idles g g''

/-- Another frame is counted. -/
def counted (g : Game) : Game := { g with framesRun := g.framesRun + 1 }

theorem runFrame_eq (g : Game) :
    runFrame g = (match g.mode with
      | .game => gameFrame
      | .bag => do
        bagFrame
        endFrame
        return true
      | .dialogue => do
        dialogueFrame
        if (← get).mode = .game then endDialogue
        endFrame
        return true : M Bool) g.counted := rfl

theorem runFrame_aside (hmode : g.mode ≠ .game) {b : Bool} (h : runFrame g = .ok b g') : g'.ground = g.ground := by
  have bag : Stays (do bagFrame; endFrame; return true : M Bool) :=
    Stays.bagFrame.bind fun _ => Stays.bind idle_ground.endFrame fun _ => Stays.value _
  have talk : Stays (do
      dialogueFrame
      if (← get).mode = .game then endDialogue
      endFrame
      return true : M Bool) := by
    have ends : Stays (do endFrame; return true : M Bool) := Stays.bind idle_ground.endFrame fun _ => Stays.value _
    exact Stays.dialogueFrame.bind fun _ => Stays.look fun _ => .ite (Stays.endDialogue.bind fun _ => ends) ends
  have hcounted : g.counted.ground = g.ground := rfl
  rw [runFrame_eq] at h
  cases hm : g.mode with
  | game => exact absurd hm hmode
  | bag => rw [hm] at h; exact ((bag g.counted).of_ok h).trans hcounted
  | dialogue => rw [hm] at h; exact ((talk g.counted).of_ok h).trans hcounted

theorem Idles.ground (h : Idles g g') : g'.ground = g.ground := by
  induction h with
  | none => rfl
  | input _ _ ih => exact ih
  | frame _ hmode hframe ih => exact (runFrame_aside hmode hframe).trans ih

/-! ### Entering the scene -/

theorem runFrame_game (hmode : g.mode = .game) : runFrame g = gameFrame g.counted := by
  rw [runFrame_eq, hmode]

/-- A game in front of the scene that it enters. -/
def entering (g : Game) : Game :=
  { g with
    stage := { g.stage with mixer := g.stage.mixer.stop g.sound.id }
    switching := false
    sceneFile := g.nextFile }

/-- The part of a frame behind the scene that it enters, and the saved game that it puts in place. -/
def frameBehindScene : M Bool := do
  if (← get).tables.objectsCount = 0 then throw .emptyScene
  onBag selectFirst
  usePalette
  modify fun g => { g with lost := false, firstRests := g.sceneFile.startsWith "FLY" }
  playFrame
  return true

theorem gameFrame_eq (hswitching : g.switching = true) :
    gameFrame g = (takeFile g.nextFile >>= fun s => match s with
      | .ended => pure false
      | .restarted => pure true
      | .entered => finishRestoring >>= fun _ => frameBehindScene : M Bool) { g with switching := false } := by
  change (if g.switching then _ else _ : M Bool) g = _
  rw [if_pos hswitching, switchScene]
  simp only [bind_assoc]
  refine (bind_of_ok (m := modify _) rfl).trans ((bind_of_ok (m := get) rfl).trans (bind_congr_ok fun s t _ => ?_))
  cases s with
  | ended => rfl
  | restarted => rfl
  | entered =>
    rw [if_pos rfl]
    simp only [bind_assoc]
    refine bind_congr_ok fun _ u _ => ?_
    unfold frameBehindScene
    refine (bind_of_ok (m := get) rfl).trans (Eq.trans ?_ (bind_of_ok (m := get) rfl).symm)
    split
    · rfl
    · rfl

/-- Entering a scene gives it the variables as they are to start with. -/
theorem readScene_outset (name : String) (g : Game) :
    Leads (readScene name) g (fun _ t => t.outset = (SceneHost.start g : Game).outset) fun _ => True := by
  refine Leads.bind ((Unstocked.readFile (f := outset) name g).mono (fun file g₁ hfile => ?_) fun _ _ => trivial)
  have hstart : (SceneHost.start g₁ : Game).outset = (SceneHost.start g : Game).outset := by
    obtain ⟨hvars, -, hkept⟩ := Outset.mk.inj hfile
    exact Outset.mk.injEq .. |>.mpr ⟨hvars, hvars, hkept⟩
  exact (Description.parse_leads unloaded_outset.hostActs _ g₁).mono (fun _ _ h => h.trans hstart) fun _ _ => trivial

/-- The part of a frame behind the saved game that it puts in place. -/
def frameBehindSlot : M Bool := do
  playMusic (← get).music.name
  clearKeys
  frameBehindScene

/-- The name of a scene that frames enter. -/
def Enterable (name : String) : Prop := Text.endsWithName name "SCN" = true ∧ name ≠ lastScene

instance (name : String) : Decidable (Enterable name) := inferInstanceAs (Decidable (_ ∧ _))

/-- A frame that enters a scene reads it. -/
theorem takeFile_eq (h : Enterable g.nextFile) :
    takeFile g.nextFile { g with switching := false } = (readScene g.nextFile >>= fun _ => pure .entered) g.entering := by
  rw [takeFile, if_pos h.1]
  change (if g.nextFile = lastScene then _ else _ : M Switch) _ = _
  rw [if_neg h.2]
  rfl

/-- A frame that switches to the last scene ends the game. -/
theorem runFrame_ended (hmode : g.mode = .game) (hswitching : g.switching = true) (hlast : g.nextFile = lastScene) :
    ∃ g', runFrame g = .ok false g' ∧ g'.sceneFile = g.sceneFile := by
  have htake : ∃ g', takeFile g.counted.nextFile { g.counted with switching := false } = .ok .ended g' ∧
      g'.sceneFile = g.sceneFile := by
    rw [show g.counted.nextFile = lastScene from hlast, takeFile, if_pos (by decide)]
    exact ⟨_, rfl, rfl⟩
  obtain ⟨g', htake, hscene⟩ := htake
  refine ⟨g', ?_, hscene⟩
  rw [runFrame_game hmode, gameFrame_eq (show g.counted.switching = true from hswitching), bind_of_ok htake]
  rfl

theorem finishRestoring_eq (h : g.restoring = true) :
    (finishRestoring >>= fun _ => frameBehindScene) g =
      (restoreSlot g.slot >>= fun _ => frameBehindSlot) { g with restoring := false } := by
  rw [finishRestoring]
  simp only [bind_assoc]
  refine (bind_of_ok (m := get) rfl).trans ?_
  rw [if_pos h]
  simp only [bind_assoc]
  rfl

/-- In the frame that enters the scene of a saved game, the scene is read with the variables that it
started with, and when the rest is put in place these are what the scene starts with. -/
theorem AsksFor.entered {b : Bool} (hasks : AsksFor k header g) (hscene : Enterable header.sceneName)
    (h : gameFrame g = .ok b g') : ∃ t r, readScene header.sceneName g.entering = .ok () t ∧
      (∀ text s, Description.Reached text g.entering s → s.host.vars = k.defaultVars ∧ s.host.defaultVars = k.defaultVars) ∧
      restoreSlot g.slot { t with restoring := false } = .ok () r ∧ r.defaultVars = k.defaultVars ∧
      frameBehindSlot r = .ok b g' := by
  have hstarted : (SceneHost.start g.entering : Game).outset = ⟨k.defaultVars, k.defaultVars, true, g.saves, g.slot⟩ := by
    change Outset.mk g.vars g.vars g.restoring g.saves g.slot = _
    rw [hasks.vars, hasks.restoring]
  have hnext : Enterable g.nextFile := hasks.nextFile ▸ hscene
  rw [gameFrame_eq hasks.switching] at h
  obtain ⟨s, t, htake, hrest⟩ := bind_eq_ok.mp h
  rw [takeFile_eq hnext, hasks.nextFile] at htake
  obtain ⟨_, _, hread, hs⟩ := bind_eq_ok.mp htake
  cases hs
  obtain ⟨-, hdefault, hrestoring, -, hslot⟩ := Outset.mk.inj (((readScene_outset _ _).of_ok hread).trans hstarted)
  change (finishRestoring >>= fun _ => frameBehindScene) t = .ok b g' at hrest
  rw [finishRestoring_eq hrestoring, show restoreSlot t.slot = restoreSlot g.slot from congrArg restoreSlot hslot] at hrest
  obtain ⟨_, r, hrestore, hrest⟩ := bind_eq_ok.mp hrest
  refine ⟨t, r, hread, fun text s hs => ?_, hrestore, ?_, hrest⟩
  · obtain ⟨hvars, hdefault, -⟩ := Outset.mk.inj ((hs.host unloaded_outset.hostActs).trans hstarted)
    exact ⟨hvars, hdefault⟩
  · have hsame := (restoreSlot_unsaved g.slot { t with restoring := false }).of_ok hrestore
    exact (congrArg Prod.fst hsame).trans hdefault

/-! ### A saved game in the first slot -/

variable {t : Game}

/-- The file that a game is saved to. -/
def saveFile (k : Game) : ByteArray := Bytes.ofList (SaveState.fileBytes k.snapshot)

theorem Savable.savedScene (h : Savable k) (hw : k.snapshot.Writable) :
    SavedScene k k.saveFile ⟨k.defaultVars.toList, k.sceneFile⟩ where
  write := (SaveState.write_ok_iff k.snapshot).mpr ⟨hw, rfl⟩
  reads := SaveState.readHeader_fileBytes (h.storable hw)

theorem Savable.read_saveFile (h : Savable k) (hw : k.snapshot.Writable) :
    SaveState.read k.saveFile true = .ok k.snapshot := SaveState.read_fileBytes (h.storable hw)

/-- A saved game put in place of a game. -/
def restored (k g : Game) : Game :=
  { restore k.snapshot g with
    vars := k.vars
    music := { track := signed (UInt32.ofInt k.music.track), name := k.music.name, file := none }
    nextFile := k.sceneFile }

theorem defaultVars_restored (k t : Game) : (restored k { t with restoring := false }).defaultVars = t.defaultVars := by
  simp only [restored, restore]

theorem restoreSlot_saved {slot : Nat} (h : Savable k) (hw : k.snapshot.Writable)
    (hslot : g.saves.readSlot? slot = some k.saveFile) : restoreSlot slot g = .ok () (restored k g) := by
  rw [restoreSlot_ok hslot (h.savedScene hw).reads (h.read_saveFile hw), restored, restore, restore]
  simp only [snapshot, overwrite_toList]

/-- The file of a saved game is still there when its scene has been read. -/
theorem restoreSlot_read {name : String} (hread : readScene name g.entering = .ok () t) (h : Savable k)
    (hw : k.snapshot.Writable) (hslot : g.saves.readSlot? g.slot = some k.saveFile) :
    restoreSlot g.slot { t with restoring := false } = .ok () (restored k { t with restoring := false }) := by
  obtain ⟨-, -, -, hsaves, -⟩ := Outset.mk.inj ((readScene_outset _ _).of_ok hread)
  have hfile : t.saves.readSlot? g.slot = some k.saveFile := (congrArg (·.readSlot? g.slot) hsaves).trans hslot
  exact restoreSlot_saved h hw hfile

/-- A frame that reads the scene of a saved game and puts the saved game in place goes on from there. -/
theorem gameFrame_restored {r : Game} {b : Bool} (hswitching : g.switching = true) (hrestoring : g.restoring = true)
    (hscene : Enterable g.nextFile) (hread : readScene g.nextFile g.entering = .ok () t)
    (hrestore : restoreSlot g.slot { t with restoring := false } = .ok () r) (hrest : frameBehindSlot r = .ok b g') :
    gameFrame g = .ok b g' := by
  obtain ⟨-, -, hkept, -, hslot⟩ := Outset.mk.inj ((readScene_outset _ _).of_ok hread)
  have htake : takeFile g.nextFile { g with switching := false } = .ok .entered t := by
    rw [takeFile_eq hscene]
    exact bind_of_ok hread
  rw [gameFrame_eq hswitching, bind_of_ok htake]
  change (finishRestoring >>= fun _ => frameBehindScene) t = _
  rw [finishRestoring_eq (show t.restoring = true from hkept.trans hrestoring),
    show restoreSlot t.slot = restoreSlot g.slot from congrArg restoreSlot hslot, bind_of_ok hrestore]
  exact hrest

/-- Of the keys only the one that loads is pressed. -/
theorem takeKeys_ok (hinput : g.stage.input = { load := true }) (hlog : g.keyLog = none) (hlost : g.lost = false)
    (hslot : g.saves.readSlot? g.slot = some d) (hd : SaveState.readHeader d = .ok header) :
    takeKeys g = .ok () (asking header { g with keys := setKeys { load := true } g.keys }) := by
  let pressed : Game := { g with keys := setKeys { load := true } g.keys }
  have hplay : (modify fun g => playKeys { g with keys := setKeys { load := true } g.keys } : M Unit) g = .ok () pressed := by
    change EStateM.Result.ok () (playKeys pressed) = .ok () pressed
    rw [playKeys, show pressed.keyLog = none from hlog]
  have hload : takeLoad { load := true } pressed = .ok () (asking header pressed) := takeLoad_ok rfl hslot hd
  have hinput' : input g = .ok { load := true } g := by
    change EStateM.Result.ok g.stage.input g = _
    rw [hinput]
  rw [takeKeys, bind_of_ok hinput', bind_of_ok hplay]
  exact (bind_of_ok hload).trans (takeRestart_ok hlost)

/-- The player presses the key that loads, with a saved game in the first slot. -/
def loading (k g : Game) : Game :=
  { g with
    saves := ⟨".", some [⟨Settings.slotName 1, k.saveFile⟩]⟩
    stage := { Stage.ofRate 22050 with input := { load := true } } }

/-- The game once the keys of that frame are taken. -/
def asked (k g : Game) : Game :=
  { (loading k g).counted with
    stage := { Stage.ofRate 22050 with input := {} }
    keys := setKeys { load := true } g.keys
    music := { g.music with file := none }
    vars := k.defaultVars
    nextFile := k.sceneFile
    switching := true
    restoring := true }

theorem asking_loading (k g : Game) :
    asking ⟨k.defaultVars.toList, k.sceneFile⟩ { (loading k g).counted with keys := setKeys { load := true } g.keys } =
      asked k g := by
  simp only [asking, asked, loading, counted, overwrite_toList]

theorem readSlot_loading (k g : Game) : (loading k g).saves.readSlot? 1 = some k.saveFile := by
  simp [loading, SaveFolder.readSlot?, SaveFolder.find?]

/-- When nothing is in the way, a frame loads the saved game of the first slot. -/
theorem loadFrame_loading (h : Savable k) (hw : k.snapshot.Writable) (hlog : g.keyLog = none) (hlost : g.lost = false)
    (hslot : g.slot = 1) (hrest : frameBehindKeys (asked k g) = .ok () g') :
    LoadFrame k.saveFile (loading k g).counted (asked k g) g' := by
  have hfile : (loading k g).saves.readSlot? g.slot = some k.saveFile := hslot ▸ readSlot_loading k g
  have hkeys := takeKeys_ok (g := (loading k g).counted) rfl hlog hlost hfile (h.savedScene hw).reads
  exact {
    goesOn := hlost
    load := rfl
    keys := asking_loading k g ▸ hkeys
    slot := hfile
    rest := hrest }

/-- A frame without a switch to another scene takes the keys and goes on from there. -/
theorem gameFrame_play {h : Game} (hswitching : g.switching = false) (hkeys : takeKeys g = .ok () h)
    (hrest : frameBehindKeys h = .ok () g') : gameFrame g = .ok true g' := by
  change (if g.switching then _ else playFrame >>= fun _ => pure true : M Bool) g = _
  rw [hswitching, if_neg (by decide), playFrame_eq, bind_assoc, bind_of_ok hkeys, bind_of_ok hrest]
  rfl

/-- Without movies nothing happens to the objects, unless the story ends. -/
theorem objectsFrame_ok (hloaded : g.tables.loaded ≠ .movies) (hending : g.vars.get Var.ending ≠ 1) :
    ∃ keys, objectsFrame g = .ok () { g with requested := none, keys } := by
  have story (keys : Vector UInt8 numKeys) : (do
      if (← get).tables.loaded = .movies then sceneFrame
      finishStory : M Unit) { g with requested := none, keys } = .ok () { g with requested := none, keys } := by
    change (if g.tables.loaded = .movies then _ else finishStory : M Unit) _ = _
    rw [if_neg hloaded]
    change (if g.vars.get Var.ending = 1 then _ else pure () : M Unit) _ = _
    rw [if_neg hending]
    rfl
  change ∃ keys, (if g.vars.get Var.keysOff ≠ 0 then clearKeys >>= fun _ => _ else _ : M Unit) { g with requested := none } = _
  split
  · exact ⟨_, story _⟩
  · exact ⟨_, story g.keys⟩

/-- Nor does anything happen in the rest of a frame that goes on to another scene. -/
theorem frameBehindKeys_ok (hloaded : g.tables.loaded ≠ .movies) (hending : g.vars.get Var.ending ≠ 1)
    (hswitching : g.switching = true) (htalking : g.talking = false) :
    ∃ g', frameBehindKeys g = .ok () g' ∧ g'.vars = g.vars ∧ g'.ground = g.ground := by
  let clicked := after takeClicks g
  have hclicked : takeClicks g = .ok () clicked := rfl
  obtain ⟨keys, hobjects⟩ := objectsFrame_ok (g := clicked) hloaded hending
  refine ⟨{ clicked with requested := none, keys }, ?_, rfl, rfl⟩
  rw [frameBehindKeys, bind_of_ok hclicked, bind_of_ok hobjects]
  change (if !g.switching then _ else _ : M Unit) _ = _
  rw [if_neg (by rw [hswitching]; decide)]
  change (if g.talking then _ else pure () : M Unit) _ = _
  rw [if_neg (by rw [htalking]; decide)]
  rfl

theorem runFrame_loading {h : Game} (hmode : g.mode = .game) (hswitching : g.switching = false)
    (hload : LoadFrame k.saveFile (loading k g).counted h g') : runFrame (loading k g) = .ok true g' :=
  (runFrame_game (g := loading k g) hmode).trans (gameFrame_play hswitching hload.keys hload.rest)

/-- The frame that loads a saved game from the first slot and the next one, when that one enters the scene. -/
theorem two_frames {b : Bool} {g'' : Game} (h : Savable k) (hw : k.snapshot.Writable) (hscene : Enterable k.sceneFile)
    (hlog : g.keyLog = none) (hlost : g.lost = false) (hslot : g.slot = 1)
    (hrest : frameBehindKeys (asked k g) = .ok () g') (hnext : g'.nextFile = k.sceneFile) (hmode : g'.mode = .game)
    (hread : readScene k.sceneFile g'.counted.entering = .ok () t)
    (hlast : frameBehindSlot (restored k { t with restoring := false }) = .ok b g'') :
    LoadFrame k.saveFile (loading k g).counted (asked k g) g' ∧
      restoreSlot g'.slot { t with restoring := false } = .ok () (restored k { t with restoring := false }) ∧
      runFrame g' = .ok b g'' := by
  have hwaits : Waits (asked k g) g' := (waits_frameBehindKeys _).of_ok hrest
  have hfile : g'.saves.readSlot? g'.slot = some k.saveFile := by
    rw [hwaits.saves, hwaits.slot, show (asked k g).slot = 1 from hslot]
    exact readSlot_loading k g
  have hnext' : g'.counted.nextFile = k.sceneFile := hnext
  have hrestore := restoreSlot_read (g := g'.counted) hread h hw hfile
  refine ⟨loadFrame_loading h hw hlog hlost hslot hrest, hrestore, ?_⟩
  rw [runFrame_game hmode]
  refine gameFrame_restored (hwaits.switching rfl) (hwaits.restoring.trans rfl) (hnext' ▸ hscene) ?_ hrestore hlast
  rw [hnext']
  exact hread

/-! ### Two frames -/

/-- A saved game is loaded in two frames. The one in which the player asks for it takes its variables
and its scene; as long as the variables and the scene are left alone until the next frame of the game,
that frame reads the scene with them, and puts the rest in place without changing them. -/
theorem SavedScene.loaded_in_two_frames {h g₁ g₂ g₃ : Game} {b : Bool} (hk : SavedScene k d header)
    (hscene : Enterable header.sceneName) (hload : LoadFrame d g h g₁) (hfile : g₁.nextFile = h.nextFile)
    (hidle : Idles g₁ g₂) (hvars : g₂.vars = h.vars) (hmode : g₂.mode = .game) (hframe : runFrame g₂ = .ok b g₃) :
    ∃ t r, readScene header.sceneName g₂.counted.entering = .ok () t ∧
      (∀ text s, Description.Reached text g₂.counted.entering s →
        s.host.vars = k.defaultVars ∧ s.host.defaultVars = k.defaultVars) ∧
      restoreSlot g₂.slot { t with restoring := false } = .ok () r ∧ r.defaultVars = k.defaultVars ∧
      frameBehindSlot r = .ok b g₃ := by
  have hasks := hk.taken hload
  have hwaits : Waits h g₂ := ((waits_frameBehindKeys h).of_ok hload.rest).trans (.of_ground hidle.ground)
  have hnext : g₂.nextFile = g₁.nextFile := congrArg Ground.nextFile hidle.ground
  have hcounted : AsksFor k header g₂.counted := {
    vars := hvars.trans hasks.vars
    nextFile := hnext.trans (hfile.trans hasks.nextFile)
    switching := hwaits.switching hasks.switching
    restoring := hwaits.restoring.trans hasks.restoring }
  rw [runFrame_game hmode] at hframe
  exact hcounted.entered hscene hframe

/-- A game that has only the file of one scene. -/
def bareGame : Game := { (default : Game) with data := ⟨"DATA", [⟨"SCN/C1_02.SCN", ByteArray.empty⟩]⟩ }

theorem writable_jackGame : jackGame.snapshot.Writable := ⟨by decide, by decide, by decide⟩

theorem passes_bareGame : passes frameBehindKeys (fun g => decide (g.nextFile = jackGame.sceneFile ∧ g.mode = .game) &&
    passes (readScene jackGame.sceneFile) (fun t =>
      passes frameBehindSlot (fun _ => true) (restored jackGame { t with restoring := false })) g.counted.entering)
    (asked jackGame bareGame) = true := by decide +kernel

theorem SavedScene.loaded_in_two_frames_jackGame :
    ∃ (d : ByteArray) (header : SaveHeader) (g h g₁ g₂ g₃ : Game) (b : Bool),
      SavedScene jackGame d header ∧ Enterable header.sceneName ∧ LoadFrame d g h g₁ ∧ g₁.nextFile = h.nextFile ∧
      Idles g₁ g₂ ∧ g₂.vars = h.vars ∧ g₂.mode = .game ∧ runFrame g₂ = .ok b g₃ ∧
      ∃ t r, readScene header.sceneName g₂.counted.entering = .ok () t ∧
        (∀ text s, Description.Reached text g₂.counted.entering s →
          s.host.vars = jackGame.defaultVars ∧ s.host.defaultVars = jackGame.defaultVars) ∧
        restoreSlot g₂.slot { t with restoring := false } = .ok () r ∧ r.defaultVars = jackGame.defaultVars ∧
        frameBehindSlot r = .ok b g₃ := by
  obtain ⟨_, hrest, htests⟩ := of_passes passes_bareGame
  obtain ⟨hkept, hread⟩ := Bool.and_eq_true_iff.mp htests
  obtain ⟨hnext, hmode⟩ := of_decide_eq_true hkept
  obtain ⟨_, hread, hslot⟩ := of_passes hread
  obtain ⟨b, hlast, -⟩ := of_passes hslot
  have hending : Vector.get (asked jackGame bareGame).vars Var.ending ≠ 1 := by decide
  obtain ⟨g₁, hrest', hvars, -⟩ := frameBehindKeys_ok (g := asked jackGame bareGame) (by decide) hending rfl rfl
  rw [← after_of_ok hrest'] at hvars
  have hsaved := savable_jackGame.savedScene writable_jackGame
  have hscene : Enterable jackGame.sceneFile := by decide
  obtain ⟨hload, -, hframe⟩ := two_frames (g := bareGame) savable_jackGame writable_jackGame hscene rfl rfl rfl hrest
    hnext hmode hread hlast
  exact ⟨_, _, _, _, _, _, _, b, hsaved, hscene, hload, hnext, .none _, hvars, hmode, hframe,
    hsaved.loaded_in_two_frames hscene hload hnext (.none _) hvars hmode hframe⟩

/-! ### Scripts in between -/

instance (g : Game) : Decidable (Savable g) :=
  decidable_of_iff (g.tables.objectsCount ≤ maxObjects ∧
      (∀ o ∈ g.tables.activeObjects, Text.NoZero o.name ∧ Text.NoZero o.className) ∧
      (∀ n ∈ g.tables.boxCounts.toList, n ≤ boxesPerGroup) ∧ g.bag.entries.length ≤ maxBag ∧
      (∀ e ∈ g.bag.entries, Text.NoZero e.name) ∧ (Text.NoZero g.sceneFile ∧ g.sceneFile.utf8ByteSize ≤ 65534) ∧
      Text.NoZero g.music.name ∧ g.music.name.utf8ByteSize ≤ 65535)
    ⟨fun ⟨h₁, h₂, h₃, h₄, h₅, h₆, h₇⟩ => ⟨h₁, h₂, h₃, h₄, h₅, h₆, h₇⟩,
      fun ⟨h₁, h₂, h₃, h₄, h₅, h₆, h₇⟩ => ⟨h₁, h₂, h₃, h₄, h₅, h₆, h₇⟩⟩

/-- The bytes of a text without accents. -/
def plainBytes (s : String) : ByteArray := Bytes.ofList (s.toList.map fun c => c.toNat.toUInt8)

/-- A movie with one object. Its script sets the sixth variable. -/
def writingMovie : ByteArray := Bytes.ofList
  [0x4D, 0x35, 6, 0, 0x61, 0x2E, 0x73, 0x70, 0x72, 0, 1, 0, 0, 0, 0, 3, 0, 2, 0, 0x4F, 0, 0xB8, 0x0B, 3, 0, 0, 0,
    4, 0, 12, 0, 12, 0, 0, 0, 0x70, 0x17, 5, 0, 0, 0, 1, 0]

/-- One motion of one point. -/
def pointBank : ByteArray := Bytes.ofList
  [0x53, 0x35, 1, 0, 11, 0, 5, 0, 0, 0, 0, 0, 0, 0, 0, 0, 0, 1, 0, 1, 0, 1, 0, 0, 0, 0, 0, 0, 0]

/-- The files of a demo whose scene has that movie as long as the variable is not set. There is another
movie, without objects. -/
def writingFiles : DataDir where
  root := "DATA"
  files := [⟨"SCN/-01.SCN", plainBytes "Movies\nGlobalMemory [6] == 0 -> w.mov\nMoviesEnd"⟩,
    ⟨"SCN/PIC4.SCN", ByteArray.empty⟩, ⟨"SCN/w.mov", writingMovie⟩, ⟨"SCN/a.mov", demoMovie⟩,
    ⟨"SCN/a.spr", pointBank⟩,
    ⟨"bermuda.wgp", demoWindow⟩, ⟨"bermuda.spr", demoSprites⟩]

noncomputable def writingDemo : Game := demoGame writingFiles "-01.SCN"

/-- The demo, with its scene loaded. This game is saved. -/
noncomputable def savedDemo : Game := after (loadScene "-01.SCN") writingDemo

/-- A frame later the object is there. -/
noncomputable def runningDemo : Game := after runFrame savedDemo

/-- The player has loaded the saved game, and the script has set the variable since. -/
noncomputable def spoiltDemo : Game := after frameBehindKeys (asked savedDemo runningDemo)

/-- The scene has been entered with that variable. -/
noncomputable def enteredDemo : Game := after (readScene "-01.SCN") spoiltDemo.counted.entering

/-- The saved game has been put in place. -/
noncomputable def restoredDemo : Game := restored savedDemo { enteredDemo with restoring := false }

/-- A frame later there is an object, and no movie. -/
noncomputable def strandedDemo : Game := after frameBehindSlot restoredDemo

/-- A game in the scene that ends the game. -/
noncomputable def endedDemo : Game := after (loadScene lastScene) writingDemo

/-- That game is to be loaded. -/
noncomputable def endingDemo : Game := after frameBehindKeys (asked endedDemo runningDemo)

/-- Each frame goes on from where the one before it ends, in a demo that is evaluated once. -/
theorem passes_writingDemo :
    passes (loadScene "-01.SCN") (fun k =>
      decide ((Savable k ∧ k.snapshot.Writable) ∧ k.sceneFile = "-01.SCN" ∧ k.defaultVars[5] = 0) &&
      passes runFrame (fun g =>
        decide ((g.keyLog = none ∧ g.lost = false ∧ g.slot = 1) ∧ g.mode = .game ∧ g.switching = false) &&
        (passes frameBehindKeys (fun g =>
          decide (g.nextFile = "-01.SCN" ∧ g.mode = .game) &&
          passes (readScene "-01.SCN") (fun t =>
            decide (t.defaultVars[5] = 1) &&
            passes frameBehindSlot (fun g => decide (g.tables.animations.size = 0 ∧ g.tables.objectsCount = 1))
              (restored k { t with restoring := false })) g.counted.entering) (asked k g) &&
        passes (loadScene lastScene) (fun k =>
          decide ((Savable k ∧ k.snapshot.Writable) ∧ k.sceneFile = lastScene) &&
          passes frameBehindKeys (fun g => decide (g.nextFile = lastScene ∧ g.mode = .game ∧ g.sceneFile ≠ lastScene))
            (asked k g)) writingDemo)) k) writingDemo = true := by
  decide +kernel

/-- What the demo comes to, frame by frame. -/
structure WritingRun : Prop where
  saved : loadScene "-01.SCN" writingDemo = .ok () savedDemo
  savable : Savable savedDemo ∧ savedDemo.snapshot.Writable
  first : savedDemo.sceneFile = "-01.SCN" ∧ savedDemo.defaultVars[5] = 0
  running : ∃ b, runFrame savedDemo = .ok b runningDemo
  ready : (runningDemo.keyLog = none ∧ runningDemo.lost = false ∧ runningDemo.slot = 1) ∧
    runningDemo.mode = .game ∧ runningDemo.switching = false
  spoilt : frameBehindKeys (asked savedDemo runningDemo) = .ok () spoiltDemo
  next : spoiltDemo.nextFile = "-01.SCN" ∧ spoiltDemo.mode = .game
  entered : readScene "-01.SCN" spoiltDemo.counted.entering = .ok () enteredDemo
  written : enteredDemo.defaultVars[5] = 1
  stranded : ∃ b, frameBehindSlot restoredDemo = .ok b strandedDemo
  object : strandedDemo.tables.animations.size = 0 ∧ strandedDemo.tables.objectsCount = 1
  ended : loadScene lastScene writingDemo = .ok () endedDemo
  last : (Savable endedDemo ∧ endedDemo.snapshot.Writable) ∧ endedDemo.sceneFile = lastScene
  ending : frameBehindKeys (asked endedDemo runningDemo) = .ok () endingDemo
  elsewhere : endingDemo.nextFile = lastScene ∧ endingDemo.mode = .game ∧ endingDemo.sceneFile ≠ lastScene

theorem writingRun : WritingRun := by
  obtain ⟨_, hsaved, h⟩ := of_passes passes_writingDemo
  obtain ⟨hk, h⟩ := Bool.and_eq_true_iff.mp h
  obtain ⟨hsavable, hfirst⟩ := of_decide_eq_true hk
  obtain ⟨b, hrunning, h⟩ := of_passes h
  obtain ⟨hready, h⟩ := Bool.and_eq_true_iff.mp h
  obtain ⟨hspoilt, hended⟩ := Bool.and_eq_true_iff.mp h
  obtain ⟨_, hspoilt, h⟩ := of_passes hspoilt
  obtain ⟨hnext, h⟩ := Bool.and_eq_true_iff.mp h
  obtain ⟨_, hentered, h⟩ := of_passes h
  obtain ⟨hwritten, h⟩ := Bool.and_eq_true_iff.mp h
  obtain ⟨b', hstranded, hobject⟩ := of_passes h
  obtain ⟨_, hended, h⟩ := of_passes hended
  obtain ⟨hlast, h⟩ := Bool.and_eq_true_iff.mp h
  obtain ⟨_, hending, helsewhere⟩ := of_passes h
  exact {
    saved := hsaved
    savable := hsavable
    first := hfirst
    running := ⟨b, hrunning⟩
    ready := of_decide_eq_true hready
    spoilt := hspoilt
    next := of_decide_eq_true hnext
    entered := hentered
    written := of_decide_eq_true hwritten
    stranded := ⟨b', hstranded⟩
    object := of_decide_eq_true hobject
    ended := hended
    last := of_decide_eq_true hlast
    ending := hending
    elsewhere := of_decide_eq_true helsewhere }

theorem reachable_writingDemo : Reachable writingDemo :=
  .start (startDemo_eq (by decide : firstScenes.find? writingFiles.contains = some "-01.SCN") rfl rfl)

/-- The saved game is loaded over two frames of the demo. -/
theorem frames_spoiltDemo : LoadFrame savedDemo.saveFile (loading savedDemo runningDemo).counted (asked savedDemo runningDemo) spoiltDemo ∧
    restoreSlot spoiltDemo.slot { enteredDemo with restoring := false } = .ok () restoredDemo ∧
      runFrame (loading savedDemo runningDemo) = .ok true spoiltDemo ∧ ∃ b, runFrame spoiltDemo = .ok b strandedDemo := by
  obtain ⟨-, ⟨hsavable, hw⟩, ⟨hname, -⟩, -, ⟨⟨hlog, hlost, hslot⟩, hmode, hswitching⟩, hspoilt, ⟨hnext, hmode₁⟩, hread, -,
    ⟨b, hlast⟩, -⟩ := writingRun
  have hscene : Enterable savedDemo.sceneFile := hname ▸ (by decide : Enterable "-01.SCN")
  obtain ⟨hload, hrestore, hframe⟩ := two_frames hsavable hw hscene hlog hlost hslot hspoilt (hnext.trans hname.symm)
    hmode₁ (hname ▸ hread) hlast
  exact ⟨hload, hrestore, runFrame_loading hmode hswitching hload, b, hframe⟩

/-- Loading a game is up to what happens in between: a script that sets a variable right after the player
has asked for the saved game changes the variables that its scene starts with. And a saved game of the last
scene is not loaded at all. -/
theorem SavedScene.not_always_loaded :
    (∃ (k g h g₁ g₂ t r : Game) (d : ByteArray) (header : SaveHeader) (b : Bool),
      Reachable k ∧ SavedScene k d header ∧ Enterable header.sceneName ∧
      Reachable g ∧ g.mode = .game ∧ g.switching = false ∧ LoadFrame d g.counted h g₁ ∧
      runFrame g = .ok true g₁ ∧ runFrame g₁ = .ok b g₂ ∧
      readScene header.sceneName g₁.counted.entering = .ok () t ∧
      restoreSlot g₁.slot { t with restoring := false } = .ok () r ∧ r.defaultVars ≠ k.defaultVars) ∧
    ∃ (k g h g₁ g₂ : Game) (d : ByteArray) (header : SaveHeader),
      Reachable k ∧ SavedScene k d header ∧ Reachable g ∧ g.mode = .game ∧ g.switching = false ∧
      LoadFrame d g.counted h g₁ ∧ runFrame g = .ok true g₁ ∧ runFrame g₁ = .ok false g₂ ∧
      g₂.sceneFile ≠ header.sceneName := by
  obtain ⟨hsaved, ⟨hsavable, hw⟩, ⟨hname, hvars⟩, ⟨_, hrunning⟩, ⟨⟨hlog, hlost, hslot⟩, hmode, hswitching⟩, -, -, hread,
    hwritten, -, -, hended, ⟨⟨hsavable', hw'⟩, hname'⟩, hending, ⟨hnext', hmode', helsewhere⟩⟩ := writingRun
  have hsavedDemo : Reachable savedDemo := reachable_writingDemo.ok (.loadScene "-01.SCN") hsaved
  have hendedDemo : Reachable endedDemo := reachable_writingDemo.ok (.loadScene lastScene) hended
  have hloading (k : Game) : Reachable (loading k runningDemo) :=
    (hsavedDemo.ok .runFrame (Call.runFrame_ok hrunning)).outside _ _ _ _ _
  constructor
  · have hscene : Enterable savedDemo.sceneFile := hname ▸ (by decide : Enterable "-01.SCN")
    obtain ⟨hload, hrestore, hfirst, b, hframe⟩ := frames_spoiltDemo
    refine ⟨savedDemo, loading savedDemo runningDemo, _, spoiltDemo, _, enteredDemo, restoredDemo, _, _, b, hsavedDemo,
      hsavable.savedScene hw, hscene, hloading _, hmode, hswitching, hload, hfirst, hframe, hname ▸ hread, hrestore, ?_⟩
    intro hsame
    have hwritten' : enteredDemo.defaultVars = savedDemo.defaultVars :=
      (defaultVars_restored savedDemo enteredDemo).symm.trans hsame
    rw [hwritten', hvars] at hwritten
    exact absurd hwritten (by decide)
  · have hload := loadFrame_loading hsavable' hw' hlog hlost hslot hending
    have hfirst := runFrame_loading hmode hswitching hload
    have hwaits : Waits (asked endedDemo runningDemo) endingDemo := (waits_frameBehindKeys _).of_ok hending
    obtain ⟨g₂, hframe, hscene⟩ := runFrame_ended hmode' (hwaits.switching rfl) hnext'
    refine ⟨endedDemo, loading endedDemo runningDemo, _, endingDemo, g₂, _, _, hendedDemo, hsavable'.savedScene hw',
      hloading _, hmode, hswitching, hload, hfirst, hframe, ?_⟩
    rw [hscene]
    exact hname' ▸ helsewhere

end Adventure.Game
