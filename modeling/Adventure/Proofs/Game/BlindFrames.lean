import Adventure.Game.Start
import Adventure.Proofs.Game.BlindScenes
import Adventure.Proofs.Script.Blind

/-! Frames of games that are alike. What scripts look at besides is set anew in a frame before any of
them runs: whether the first object rests when a scene is entered, the clicks when they are taken, and
the scene that is asked for ahead of the objects. From then on the games stay alike for good. -/

namespace Adventure

/-! ### Marks -/

namespace Marks

/-- The first object rests in both games or in none. -/
def SameRests (m n : Marks) : Prop := m.firstRests = n.firstRests

/-- Only the scene that was asked for may differ. -/
def SameClicks (m n : Marks) : Prop := m.firstRests = n.firstRests ∧ m.leftClick = n.leftClick ∧ m.rightClick = n.rightClick

end Marks

namespace Game

variable {K : Marks → Marks → Prop}

/-- What is left of a game that starts anew. -/
theorem bare_restarted (g : Game) : (restarted g).bare = {
    settings := g.settings, data := g.data, saves := g.saves, stage := g.stage.bare, random := g.random
    demo := g.demo, firstScene := g.firstScene
    ui := { sprites := g.ui.sprites, window := g.ui.window.blank, banner := g.ui.banner }
    palette := ByteArray.empty, background := {}, frame := {}, bag := { x := 585, y := 23 }
    nextFile := g.firstScene, switching := true, slot := g.slot, lastFrame := g.lastFrame } := rfl

/-- The keys and the recording that come of a recording and the keys of the player. -/
def played (log : Option KeyLog) (keys : Vector UInt8 numKeys) : Vector UInt8 numKeys × Option KeyLog :=
  match log with
  | none => (keys, none)
  | some log =>
    match log.next with
    | (some record, log) => (keysOf record, some log)
    | (none, log) => (keys, some log)

theorem playKeys_eq (g : Game) :
    playKeys g = { g with keys := (played g.keyLog g.keys).1, keyLog := (played g.keyLog g.keys).2 } := by
  unfold playKeys played
  cases hlog : g.keyLog with
  | none =>
    simp only
    rw [← hlog]
  | some log => rcases hnext : log.next with ⟨_ | record, log⟩ <;> simp only [hnext]

theorem followRequest_none {g : Game} (h : g.requested = none) : followRequest g = g := by
  rw [followRequest, h]

theorem followRequest_some {g : Game} {s : NextScene} (h : g.requested = some s) :
    followRequest g = { g with nextFile := s.name, switching := true } := by
  rw [followRequest, h]

/-- Both games switch to the scene that both were asked for. -/
theorem Alike.followRequest {g g' : Game} (h : Alike Eq g g') : Alike Eq (followRequest g) (followRequest g') := by
  have hrequested : g.requested = g'.requested := congrArg Marks.requested h.marks
  cases hasked : g'.requested with
  | none => rwa [followRequest_none (hrequested.trans hasked), followRequest_none hasked]
  | some s =>
    rw [followRequest_some (hrequested.trans hasked), followRequest_some hasked]
    exact Plain.alike (f := fun g => { g with nextFile := s.name, switching := true }) (fun _ => ⟨rfl, rfl, rfl⟩) h

theorem voices_restarted (g : Game) : (restarted g).voices = g.voices.stopAll := Mixer.voices_stopAll _ _

namespace Blind

theorem restart : Blind K restart := by
  refine Abreast.modifies fun g g' h => ⟨?_, ?_, ?_, h.marks⟩
  · have hbare (g : Game) : (restarted g).bare = { restarted g.bare with stage := g.bare.stage } := rfl
    rw [hbare, hbare, h.bare]
  · rw [voices_restarted, voices_restarted, h.voices]
  · rw [voices_restarted, Voices.length_stopAll]
    exact h.room

/-! ### Switching scenes -/

theorem takeFile (name : String) : Blind K (takeFile name) := by
  have enter : Blind K (do Game.readScene name; return .entered : M Switch) := (readScene name).bind fun _ => value _
  have keys : Blind K (do Game.loadKeys name; return .entered : M Switch) := (loadKeys name).bind fun _ => value _
  refine ite (stopSound.bind fun _ => ite (value _) (bind (change fun _ => ⟨rfl, rfl, rfl⟩) fun _ => enter)) <| ite ?_ <|
    (loadMovie name).bind fun _ => value _
  exact look (fun _ => rfl) fun _ => ite (restart.bind fun _ => value _) keys

/-- Entering a scene says whether the first object rests. -/
theorem setRests {K' : Marks → Marks → Prop}
    (hK : ∀ m n : Marks, K m n → ∀ b, K' { m with firstRests := b } { n with firstRests := b }) :
    Abreast (Alike K) (Alike K')
      (modify fun g => { g with lost := false, firstRests := g.sceneFile.startsWith "FLY" } : M Unit)
      (modify fun g => { g with lost := false, firstRests := g.sceneFile.startsWith "FLY" }) := by
  refine Abreast.modifies fun g g' h => ?_
  have hplain := Plain.alike (f := fun g => { g with lost := false }) (fun _ => ⟨rfl, rfl, rfl⟩) h
  refine ⟨hplain.bare, hplain.voices, hplain.room, ?_⟩
  change K' { g.marks with firstRests := g.sceneFile.startsWith "FLY" }
    { g'.marks with firstRests := g'.sceneFile.startsWith "FLY" }
  rw [h.same Game.sceneFile fun _ => rfl]
  exact hK _ _ h.marks _

theorem switchScene : Blind Eq switchScene := by
  have enter (s : Switch) : Blind Eq (do
      Game.onBag selectFirst
      Game.usePalette
      modify fun g => { g with lost := false, firstRests := g.sceneFile.startsWith "FLY" }
      return s : M Switch) :=
    (onBag _).bind fun _ => usePalette.bind fun _ =>
      bind (setRests fun _ _ h b => congrArg (fun m : Marks => { m with firstRests := b }) h) fun _ => value _
  refine bind (change fun _ => ⟨rfl, rfl, rfl⟩) fun _ => look (fun _ => rfl) fun _ => ?_
  refine (takeFile _).bind fun s => ite ?_ (value _)
  exact finishRestoring.bind fun _ => look (fun _ => rfl) fun _ => ite ((fault _).bind fun _ => enter s) (enter s)

/-! ### The player -/

theorem plain_playKeys (i : Input) : Plain fun g => playKeys { g with keys := setKeys i g.keys } := fun g => by
  simp only [playKeys_eq, bare, Game.voices, Game.marks, and_self]

theorem takeTab (i : Input) : Blind K (takeTab i) :=
  ite ((onInput _).bind fun _ => change fun _ => ⟨rfl, rfl, rfl⟩) (value _)

theorem takeCtrl (i : Input) : Blind K (takeCtrl i) :=
  ite ((onInput _).bind fun _ => change fun _ => ⟨rfl, rfl, rfl⟩) (value _)

theorem takeLoad (i : Input) : Blind K (takeLoad i) :=
  ite ((onInput _).bind fun _ => look (fun _ => rfl) fun _ => (requestSlot _).bind fun _ => change fun _ => ⟨rfl, rfl, rfl⟩)
    (value _)

theorem takeSave (i : Input) : Blind K (takeSave i) :=
  ite ((onInput _).bind fun _ => look (fun _ => rfl) fun _ => saveSlot _) (value _)

theorem takeRestart : Blind K takeRestart :=
  look (fun _ => rfl) fun _ => ite ((onInput _).bind fun _ => restart) (value _)

theorem takeKeys : Blind K takeKeys := by
  have rest (i : Input) : Blind K (do Game.takeLoad i; Game.takeSave i; Game.takeRestart : M Unit) :=
    (takeLoad i).bind fun _ => (takeSave i).bind fun _ => takeRestart
  exact input.bind fun i => (change (plain_playKeys i)).bind fun _ => (takeTab i).bind fun _ => (takeCtrl i).bind fun _ =>
    first (change fun _ => ⟨rfl, rfl, rfl⟩) (rest i)

/-- Where the first object rests in both games or in none, the same clicks are taken. -/
theorem takeClicks : Abreast (Alike Marks.SameRests) (Alike Marks.SameClicks) takeClicks takeClicks := by
  refine Abreast.modifies fun g g' h => ?_
  have hinput : g.stage.input = g'.stage.input := h.same (·.stage.input) fun _ => rfl
  have htaken : Stage.Alike g.sound.id g'.sound.id
      { g.stage with input := { g.stage.input with leftButton := false, rightButton := false } }
      { g'.stage with input := { g'.stage.input with leftButton := false, rightButton := false } } :=
    h.stage.change (f := fun s => { s with input := { s.input with leftButton := false, rightButton := false } })
      fun _ => ⟨rfl, rfl⟩
  obtain ⟨hbare, hvoices, hroom, hrests⟩ := h.onStage htaken
  exact ⟨hbare, hvoices, hroom, hrests, congrArg Input.leftButton hinput, congrArg Input.rightButton hinput⟩

/-! ### Objects -/

theorem followRequest :
    Blind Eq (modify fun g => Game.followRequest { g with ending := { g.ending with fresh := false } } : M Unit) :=
  Abreast.modifies fun _ _ h => Alike.followRequest <|
    Plain.alike (f := fun g => { g with ending := { g.ending with fresh := false } }) (fun _ => ⟨rfl, rfl, rfl⟩) h

theorem sceneFrame : Blind Eq sceneFrame := by
  refine Abreast.look fun g g' h => ?_
  have hrests : g.firstRests = g'.firstRests := congrArg Marks.firstRests h.marks
  rw [h.same Game.tables fun _ => rfl, hrests]
  have wake : Blind Eq (modify fun g => { g with firstRests := false } : M Unit) := Abreast.modifies fun _ _ h =>
    ⟨h.bare, h.voices, h.room, congrArg (fun m : Marks => { m with firstRests := false }) h.marks⟩
  exact wake.bind fun _ => (runScripts _).bind fun _ => followRequest.bind fun _ => (startObjects _).bind fun _ =>
    checkOver.bind fun _ => look (fun _ => rfl) fun _ => ite drawObjects (value _)

/-- From here on all is alike. -/
theorem objectsFrame : Abreast (Alike Marks.SameClicks) (Alike Eq) objectsFrame objectsFrame := by
  have story : Blind Eq (do
      if (← get).tables.loaded = .movies then Game.sceneFrame
      Game.finishStory) :=
    look (fun _ => rfl) fun _ => first sceneFrame finishStory
  -- the scene that was asked for is the last of the marks that may differ
  have unask : Abreast (Alike Marks.SameClicks) (Alike Eq) (modify fun g => { g with requested := none } : M Unit)
      (modify fun g => { g with requested := none }) := by
    refine Abreast.modifies fun g g' h => ⟨h.bare, h.voices, h.room, ?_⟩
    obtain ⟨hrests, hleft, hright⟩ := h.marks
    exact Marks.mk.injEq .. |>.mpr ⟨hrests, rfl, hleft, hright⟩
  exact unask.bind fun _ => look (fun _ => rfl) fun _ => first clearKeys story

/-! ### Frames -/

/-- A frame of a scene makes games alike in which the first object rests or does not. -/
theorem playFrame : Abreast (Alike Marks.SameRests) (Alike Eq) playFrame playFrame := by
  have talk : Blind Eq (do
      if (← get).talking then
        modify fun g => { g with talking := false }
        Game.beginDialogue : M Unit) :=
    look (fun _ => rfl) fun _ => ite (bind (change fun _ => ⟨rfl, rfl, rfl⟩) fun _ => beginDialogue) (value _)
  exact Abreast.bind takeKeys fun _ => takeClicks.bind fun _ => objectsFrame.bind fun _ =>
    look (fun _ => rfl) fun _ => first endFrame talk

theorem gameFrame : Blind Eq gameFrame := by
  have play : Blind Eq Game.playFrame := playFrame.mono
    (fun _ _ h => ⟨h.bare, h.voices, h.room, congrArg Marks.firstRests h.marks⟩) fun _ _ => id
  refine look (fun _ => rfl) fun _ => ite (switchScene.bind fun s => ?_) ((value _).bind fun s => ?_)
  all_goals
    cases s with
    | ended => exact value _
    | restarted => exact value _
    | entered => exact play.bind fun _ => value _

theorem runFrame : Blind Eq runFrame := by
  have count : Blind Eq (modify fun g => { g with framesRun := g.framesRun + 1 } : M Unit) :=
    shown (fun _ => ⟨rfl, rfl, rfl⟩) fun _ => ⟨rfl, rfl, rfl⟩
  refine count.bind fun _ => look (fun _ => rfl) fun g => ?_
  split
  · exact gameFrame
  · exact bagFrame.bind fun _ => endFrame.bind fun _ => value _
  · exact dialogueFrame.bind fun _ => look (fun _ => rfl) fun _ => first endDialogue (endFrame.bind fun _ => value _)

end Blind

end Game

end Adventure
