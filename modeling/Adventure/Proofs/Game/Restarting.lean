import Adventure.Proofs.Game.BlindFrames
import Adventure.Proofs.Game.Restoring

/-! Starting anew is as good as new. A game that starts anew keeps the pictures, the marks and the numbers
of sounds of what went before; in the frame that follows, its first scene is entered and sets the marks
anew before a script looks at them. So games that are set up alike tell the same story from then on,
whatever happened to each of them before. -/

namespace Adventure

namespace Game

/-- Some frames, and what each of them gave. -/
def frames : Nat → M (List Bool)
  | 0 => pure []
  | n + 1 => do
    let b ← runFrame
    return b :: (← frames n)

/-- What the player and the scripts can tell of a game. -/
structure Story where
  tables : SceneTables
  defaultVars : Vars
  vars : Vars
  bag : Bag
  mode : Mode
  nextFile : String
  sceneFile : String
  sceneNumber : Int16
  music : Music
  dialogueRequest : DialogueRequest
  talking : Bool
  ending : DialogueEnding
  conversation : Option Conversation

def story (g : Game) : Story where
  tables := g.tables
  defaultVars := g.defaultVars
  vars := g.vars
  bag := g.bag
  mode := g.mode
  nextFile := g.nextFile
  sceneFile := g.sceneFile
  sceneNumber := g.sceneNumber
  music := g.music
  dialogueRequest := g.dialogueRequest
  talking := g.talking
  ending := g.ending
  conversation := g.conversation

/-- Two games on the same files with the same settings, interface and random numbers, in the same slot and at the
same time, on stages of which only the mixers may differ: in the sounds that go on, and in how they are numbered.
No cutscene is on. -/
structure SameSetup (g g' : Game) : Prop where
  settings : g.settings = g'.settings
  demo : g.demo = g'.demo
  firstScene : g.firstScene = g'.firstScene
  data : g.data = g'.data
  saves : g.saves = g'.saves
  sprites : g.ui.sprites = g'.ui.sprites
  banner : g.ui.banner = g'.ui.banner
  window : g.ui.window.blank = g'.ui.window.blank
  stage : { g.stage with mixer := g'.stage.mixer } = g'.stage
  rate : g.stage.mixer.outputRate = g'.stage.mixer.outputRate
  volume : g.stage.mixer.volume = g'.stage.mixer.volume
  channels : g.stage.mixer.channels.length = Mixer.maxChannels ∧ g'.stage.mixer.channels.length = Mixer.maxChannels
  silent : g.stage.mixer.cutscene = false ∧ g'.stage.mixer.cutscene = false
  random : g.random = g'.random
  slot : g.slot = g'.slot
  lastFrame : g.lastFrame = g'.lastFrame

variable {g g' : Game}

theorem Alike.story {K : Marks → Marks → Prop} (h : Alike K g g') : g.story = g'.story := h.same Game.story fun _ => rfl

/-- Such games are alike when they start anew, but for their marks. -/
theorem SameSetup.alike (h : SameSetup g g') : Alike (fun _ _ => True) (restarted g) (restarted g') where
  bare := by
    have hmixer : g.stage.bare = { g.stage with mixer := g'.stage.mixer }.bare := rfl
    have hstage : g.stage.bare = g'.stage.bare := hmixer.trans (congrArg Stage.bare h.stage)
    rw [bare_restarted, bare_restarted, h.settings, h.demo, h.firstScene, h.data, h.saves, h.sprites, h.banner, h.window,
      hstage, h.random, h.slot, h.lastFrame]
  voices := by
    have hvoices (m : Mixer) (id : Int) : (m.voices id).stopAll =
        ⟨m.outputRate, m.volume, m.cutscene, List.replicate m.channels.length none, none⟩ := by
      simp [Mixer.voices, Voices.stopAll]
    rw [voices_restarted, voices_restarted, voices, voices, hvoices, hvoices, h.rate, h.volume, h.silent.1, h.silent.2,
      h.channels.1, h.channels.2]
  room := by
    rw [voices_restarted, Voices.length_stopAll, voices]
    simp [Mixer.voices, h.channels.1, Mixer.maxChannels]
  marks := trivial

theorem Alike.counted {K : Marks → Marks → Prop} (h : Alike K g g') : Alike K g.counted g'.counted :=
  have hcounted : Shows Game.counted := fun _ => ⟨rfl, rfl, rfl⟩
  hcounted.alike hcounted h

theorem Alike.entering {K : Marks → Marks → Prop} (h : Alike K g g') : Alike K g.entering g'.entering :=
  Plain.alike (f := fun g => { g with switching := false, sceneFile := g.nextFile }) (fun _ => ⟨rfl, rfl, rfl⟩)
    (h.onStage h.stage.stop)

namespace Blind

/-- The frame that enters a scene sets all marks anew. -/
theorem frameBehindScene : Abreast (Alike fun _ _ => True) (Alike Eq) frameBehindScene frameBehindScene := by
  let enters : M Bool := do
    Game.onBag selectFirst
    Game.usePalette
    modify fun g => { g with lost := false, firstRests := g.sceneFile.startsWith "FLY" }
    Game.playFrame
    return true
  have enter : Abreast (Alike fun _ _ => True) (Alike Eq) enters enters :=
    Abreast.bind (onBag _) fun _ => Abreast.bind usePalette fun _ => Abreast.bind (setRests fun _ _ _ _ => rfl) fun _ =>
      playFrame.bind fun _ => Abreast.value _
  -- no mark is looked at ahead of `enter`, whose `setRests` is the first step to make one the same
  refine Abreast.look fun g g' h => ?_
  rw [h.same Game.tables fun _ => rfl]
  exact .ite (Abreast.bind (fault _) fun _ => enter) enter

theorem frames (n : Nat) : Blind Eq (frames n) := by
  induction n with
  | zero => exact value _
  | succ n ih => exact runFrame.bind fun _ => ih.bind fun _ => value _

end Blind

theorem enterable_of_mem {scene : String} (h : scene ∈ firstScenes) : Enterable scene := by
  simp only [firstScenes, List.mem_cons, List.not_mem_nil, or_false] at h
  rcases h with rfl | rfl <;> decide

/-- The frame after starting anew enters the first scene. -/
theorem runFrame_restarted (h : g.firstScene ∈ firstScenes) : runFrame (restarted g) =
    (readScene g.firstScene >>= fun _ => finishRestoring >>= fun _ => frameBehindScene) (restarted g).counted.entering := by
  rw [runFrame_game rfl, gameFrame_eq rfl]
  have htake := takeFile_eq (g := (restarted g).counted) (enterable_of_mem h)
  rw [bind_congr_result htake, bind_assoc]
  rfl

/-- Starting anew is as good as new: two games that are set up alike, and are otherwise in any state, tell the
same story after they started anew and went on for any number of frames. -/
theorem SameSetup.story_restarted (hg : Reachable g) (h : SameSetup g g') (n : Nat) {l : List Bool} {t : Game}
    (hrun : (restart >>= fun _ => frames n) g = .ok l t) :
    ∃ t', (restart >>= fun _ => frames n) g' = .ok l t' ∧ t'.story = t.story := by
  have hmem := hg.firstScene_mem
  have hfirst : Abreast (fun s s' => s = restarted g ∧ s' = restarted g') (Alike Eq) runFrame runFrame := by
    rintro s s' ⟨rfl, rfl⟩
    rw [runFrame_restarted hmem, runFrame_restarted (h.firstScene ▸ hmem), ← h.firstScene]
    exact Abreast.bind (Blind.readScene _) (fun _ => Abreast.bind Blind.finishRestoring fun _ => Blind.frameBehindScene) _ _
      h.alike.counted.entering
  have hframes : Abreast (fun s s' => s = restarted g ∧ s' = restarted g') (fun t t' => t.story = t'.story) (frames n)
      (frames n) := by
    -- only the first frame meets marks that differ, so it is taken apart from the rest
    cases n with
    | zero =>
      rintro s s' ⟨rfl, rfl⟩
      exact ⟨rfl, h.alike.story⟩
    | succ n =>
      have hrest := hfirst.bind fun b => Abreast.bind (Blind.frames n) fun l => Abreast.value (b :: l)
      exact hrest.mono (fun _ _ => id) fun _ _ h => h.story
  obtain ⟨t', hrun', hstory⟩ := hframes.of_ok ⟨rfl, rfl⟩ hrun
  exact ⟨t', hrun', hstory.symm⟩

/-! ### A demo -/

/-- What loading a scene leaves of the setup, even when it fails. -/
def equipment (g : Game) : Settings × Bool × String × Interface × Nat × UInt32 :=
  (g.settings, g.demo, g.firstScene, g.ui, g.slot, g.lastFrame)

theorem unloaded_equipment : Unloaded equipment := fun _ _ _ _ _ _ _ _ _ => rfl

theorem loadScene_equipment (name : String) : Leaves equipment (loadScene name) := by
  have hC := Chains.same equipment
  have hpalette : Leaves equipment usePalette := Leaves.modify fun g => by split <;> rfl
  exact hC.bind (Leaves.modify fun _ => rfl) fun _ => hC.bind (unloaded_equipment.readScene (fun _ => rfl) _) fun _ => hpalette

/-- A sound of four moments. -/
def shortSound : Wav where
  samples := Bytes.replicate 4 0x90
  step := 0x100
  wide := false
  stereo := false
  volume := Wav.fullVolume

/-- A mixer that has started six sounds and still plays the last one. -/
def soundingMixer (m : Mixer) : Mixer := { m with seed := 6, channels := m.channels.set 0 (some ⟨96, shortSound⟩) }

/-- The saved demo with other variables and with a sound, but with the random numbers and the stage of the new one. -/
noncomputable def soundingDemo : Game :=
  { savedDemo with
    data := writingFiles
    saves := writingDemo.saves
    stage := { writingDemo.stage with mixer := soundingMixer writingDemo.stage.mixer }
    random := writingDemo.random
    vars := Vector.replicate numVars 7 }

theorem sameSetup_soundingDemo : SameSetup writingDemo soundingDemo := by
  have hsame : savedDemo.equipment = writingDemo.equipment := (loadScene_equipment _ _).of_ok writingRun.saved
  simp only [equipment, Prod.mk.injEq] at hsame
  obtain ⟨hsettings, hdemo, hfirst, hui, hslot, hlast⟩ := hsame
  exact {
    settings := hsettings.symm
    demo := hdemo.symm
    firstScene := hfirst.symm
    data := rfl
    saves := rfl
    sprites := congrArg Interface.sprites hui.symm
    banner := congrArg Interface.banner hui.symm
    window := congrArg (fun i : Interface => i.window.blank) hui.symm
    stage := rfl
    rate := rfl
    volume := rfl
    channels := ⟨rfl, rfl⟩
    silent := ⟨rfl, rfl⟩
    random := rfl
    slot := hslot.symm
    lastFrame := hlast.symm }

theorem passes_restartedDemo : passes (restart >>= fun _ => frames 2)
    (fun g => decide (g.tables.objectsCount = 1 ∧ g.vars[5] = 1)) writingDemo = true := by decide +kernel

theorem SameSetup.story_restarted_soundingDemo : ∃ l t t',
    Reachable writingDemo ∧ Reachable soundingDemo ∧ SameSetup writingDemo soundingDemo ∧
      soundingDemo.story ≠ writingDemo.story ∧ (restart >>= fun _ => frames 2) writingDemo = .ok l t ∧
      t.vars[5] = 1 ∧ (restart >>= fun _ => frames 2) soundingDemo = .ok l t' ∧ t'.story = t.story := by
  have hnew : Reachable writingDemo := reachable_writingDemo
  have hold : Reachable soundingDemo := (hnew.ok (.loadScene "-01.SCN") writingRun.saved).outside _ _ _ _ _
  obtain ⟨l, hrun, htest⟩ := of_passes passes_restartedDemo
  obtain ⟨t', hrun', hstory⟩ := sameSetup_soundingDemo.story_restarted hnew 2 hrun
  refine ⟨l, _, t', hnew, hold, sameSetup_soundingDemo, fun h => ?_, hrun, (of_decide_eq_true htest).2, hrun', hstory⟩
  have hscene : savedDemo.sceneFile = "" := congrArg Story.sceneFile h
  rw [writingRun.first.1] at hscene
  exact absurd hscene (by decide)

end Game

end Adventure
