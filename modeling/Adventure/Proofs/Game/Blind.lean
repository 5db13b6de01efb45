import Adventure.Proofs.Game.Alike

/-! What is drawn is looked at by nothing but drawing, and sounds are followed whatever their numbers
are: objects, drawing, the bag, dialogues and cutscenes come to the same in games that are alike. -/

namespace Adventure

/-! ### Surfaces -/

/-- A surface but for what is on it. -/
def Surface.blank (s : Surface) : Surface := { s with bits := ByteArray.empty }

theorem Sprite.blank_paintRow (color : Nat → UInt8) (y x i n : Nat) (s : Surface) :
    (paintRow color y x i n s).blank = s.blank := by
  induction n generalizing x i s with
  | zero => rfl
  | succ n ih =>
    rw [paintRow, ih]
    split <;> rfl

theorem Sprite.blank_paintRows (color : Nat → Nat → UInt8) (c : Window) (j n : Nat) (s : Surface) :
    (paintRows color c j n s).blank = s.blank := by
  induction n generalizing j s with
  | zero => rfl
  | succ n ih => rw [paintRows, ih, blank_paintRow]

theorem Sprite.blank_draw (x y : Int) (b : ByteArray) (s : Surface) : (draw x y b s).blank = s.blank := by
  simp only [draw]
  split
  · rfl
  · exact blank_paintRows _ _ _ _ _

theorem PlacedSprite.blank_drawAll (l : List PlacedSprite) (s : Surface) : (drawAll l s).blank = s.blank := by
  unfold drawAll
  induction l generalizing s with
  | nil => rfl
  | cons p l ih => exact (ih _).trans (Sprite.blank_draw _ _ _ _)

/-- An interface but for what is in the window. -/
def Interface.blank (i : Interface) : Interface := { i with window := i.window.blank }

theorem Interface.blank_nextFrames (i : Interface) (vars : Vars) (b : Bag) :
    (i.nextFrames vars b).blank = i.blank.nextFrames vars b := by
  simp only [nextFrames]
  split <;> split <;> rfl

/-! ### Cutscenes -/

namespace Playback

/-- Cutscenes that are played alike. -/
structure Alike (i j : Int) (s t : State) : Prop where
  stage : Stage.Alike i j s.stage t.stage
  demuxer : s.demuxer = t.demuxer
  cinepak : s.cinepak = t.cinepak
  report : s.report = t.report

variable {i j : Int} {α : Type}

/-- A step of playing that comes to the same. -/
def Blind (i j : Int) (m : M α) : Prop := Abreast (Alike i j) (Alike i j) m m

namespace Blind

theorem onStage {f : Stage → Stage} (hf : ∀ s t, Stage.Alike i j s t → Stage.Alike i j (f s) (f t)) :
    Blind i j (onStage f) :=
  Abreast.modifies fun _ _ h => ⟨hf _ _ h.stage, h.demuxer, h.cinepak, h.report⟩

theorem count (f : PlaybackReport → PlaybackReport) : Blind i j (count f) :=
  Abreast.modifies fun _ _ h => ⟨h.stage, h.demuxer, h.cinepak, congrArg f h.report⟩

theorem nextFrame : Blind i j nextFrame := by
  intro s t h
  simp only [Playback.nextFrame, h.demuxer]
  cases t.demuxer.nextFrame with
  | ok l d => exact ⟨rfl, h.stage, rfl, h.cinepak, h.report⟩
  | error e d => exact rfl

theorem playChunk (c : Chunk) : Blind i j (playChunk c) := by
  unfold Playback.playChunk
  split
  · refine (onStage fun s t h => ?_).bind fun _ => count _
    exact ⟨h.bare, h.voices, h.room⟩
  · refine Abreast.look fun s t h => ?_
    rw [h.cinepak]
    split
    · exact .fault _
    · rename_i cinepak _
      have hset : Blind i j (modify fun s => { s with cinepak }) :=
        Abreast.modifies fun _ _ h => ⟨h.stage, h.demuxer, rfl, h.report⟩
      have hshow (w : Nat) (buffer : ByteArray) : Blind i j (Playback.onStage fun s => (s.setOverlay buffer w).present) :=
        onStage fun _ _ h => (h.paint (Stage.paints_setOverlay _ _) (Stage.paints_setOverlay _ _)).present
      exact hset.bind fun _ => (hshow _ _).bind fun _ => count _

theorem playChunks (l : List Chunk) : Blind i j (playChunks l) := by
  induction l with
  | nil => exact .value _
  | cons c l ih => exact (playChunk c).bind fun _ => ih

theorem interrupted : Blind i j interrupted := by
  refine (onStage fun _ _ h => h.processEvents).bind fun _ => Abreast.look fun s t h => ?_
  have hstop : (s.stage.quit || s.stage.input.enter || s.stage.input.escape) =
      (t.stage.quit || t.stage.input.enter || t.stage.input.escape) :=
    h.stage.same (fun s => s.quit || s.input.enter || s.input.escape) fun _ => rfl
  simp only [hstop]
  refine .ite ?_ (.value _)
  have hkeys : Blind i j (Playback.onStage fun s => { s with input := { s.input with enter := false, escape := false } }) :=
    onStage fun _ _ h => h.change (f := fun s => { s with input := { s.input with enter := false, escape := false } })
      fun _ => ⟨rfl, rfl⟩
  exact hkeys.bind fun _ => (count _).bind fun _ => .value _

theorem waitUntil (time : UInt32) : Blind i j (waitUntil time) := by
  refine onStage fun s t h => ?_
  simp only [h.same Stage.now fun _ => rfl]
  split
  · exact h.sleep _
  · exact h

theorem frames (n : Nat) : Blind i j (frames n) := by
  induction n with
  | zero => exact .value _
  | succ n ih =>
    refine Abreast.look fun s t h => ?_
    rw [h.stage.same Stage.now fun _ => rfl, h.demuxer]
    refine interrupted.bind fun stop => .ite ?_ (.value _)
    exact nextFrame.bind fun l => (playChunks l).bind fun _ => (count _).bind fun _ => (waitUntil _).bind fun _ => ih

end Blind

/-- A cutscene before its first frame. -/
def opened (d : Demuxer) (s : Stage) : State :=
  let s := s.beginOverlay d.header.width.toNat d.header.height.toNat
  ⟨{ s with mixer := s.mixer.beginCutscene }, d, {}, { framesTotal := d.header.frames.toNat }⟩

/-- The stage behind a cutscene. -/
def closed (s : Stage) : Stage := { s with mixer := s.mixer.endCutscene }.endOverlay

theorem play_eq {data : ByteArray} {d : Demuxer} (hload : Demuxer.load data = .ok d) (s : Stage) : play data s =
    match frames d.header.frames.toNat (opened d s) with
    | .ok () s => .ok s.report (closed s.stage)
    | .error e s => .error e (closed s.stage) := by
  rw [play, hload]
  rfl

theorem Alike.opened {s t : Stage} (h : Stage.Alike i j s t) (d : Demuxer) : Alike i j (opened d s) (opened d t) where
  stage := (h.change (f := fun s => s.beginOverlay _ _) fun _ => ⟨rfl, rfl⟩).mixer
    (F := fun v => { v with cutscene := true }) (fun _ _ => rfl) fun _ => rfl
  demuxer := rfl
  cinepak := rfl
  report := rfl

theorem Alike.closed {s t : Stage} (h : Stage.Alike i j s t) : Stage.Alike i j (closed s) (closed t) :=
  (h.mixer (F := fun v => { v with cutscene := false }) (fun _ _ => rfl) fun _ => rfl).change
    (f := Stage.endOverlay) fun _ => ⟨rfl, rfl⟩

/-- A cutscene is played to the same end. -/
theorem abreast_play (data : ByteArray) : Abreast (Stage.Alike i j) (Stage.Alike i j) (play data) (play data) := by
  intro s t h
  cases hload : Demuxer.load data with
  | error e =>
    simp only [play, hload]
    exact rfl
  | ok d =>
    rw [play_eq hload, play_eq hload]
    have hframes := Blind.frames d.header.frames.toNat _ _ (Alike.opened h d)
    cases hs : frames d.header.frames.toNat (opened d s) <;> cases ht : frames d.header.frames.toNat (opened d t) <;>
      rw [hs, ht] at hframes
    · exact ⟨hframes.2.report, Alike.closed hframes.2.stage⟩
    · exact hframes.elim
    · exact hframes.elim
    · exact hframes

end Playback

namespace Game

variable {K : Marks → Marks → Prop}

namespace Blind

/-! ### Objects -/

theorem nextRandom : Blind K nextRandom := by
  refine Abreast.modifiesGet fun g g' h => ?_
  have hrandom : g.random = g'.random := h.same Game.random fun _ => rfl
  rw [hrandom]
  exact ⟨rfl, Plain.alike (f := fun g => { g with random := g'.random.next.2 }) (fun _ => ⟨rfl, rfl, rfl⟩) h⟩

theorem startState (o : SceneObject) : Blind K (startState o) := by
  unfold Game.startState
  split
  · exact value _
  · exact nextRandom.bind fun _ => value _
  · exact value _
  · exact value _

theorem startObject (i : Nat) : Blind K (startObject i) := by
  refine look (fun _ => rfl) fun g => ite (value _) <| (startState _).bind fun state => ite (value _) ?_
  exact look (fun _ => rfl) fun g => (lift _).bind fun frame => (lift _).bind fun h => onObject _ _

theorem startObjects (l : List Nat) : Blind K (startObjects l) := by
  induction l with
  | nil => exact value _
  | cons i l ih => exact (startObject i).bind fun _ => ih

theorem advanceObject (i : Nat) : Blind K (advanceObject i) := by
  refine (onObject _ _).bind fun _ => look (fun _ => rfl) fun g => ite ?_ (value _)
  exact (onObject _ _).bind fun _ => look (fun _ => rfl) fun g => (lift _).bind fun _ => (lift _).bind fun _ =>
    (lift _).bind fun _ => onObject _ _

theorem advanceObjects (l : List Nat) : Blind K (advanceObjects l) := by
  induction l with
  | nil => exact value _
  | cons i l ih => exact (advanceObject i).bind fun _ => ih

/-! ### Drawing -/

theorem shown {f f' : Game → Game} (hf : Shows f) (hf' : Shows f') : Level K (modify f) (modify f') :=
  Abreast.modifies fun _ _ h => hf.alike hf' h

theorem drawn (f f' : Surface → Surface) : Level K (onFrame f) (onFrame f') :=
  shown (fun _ => ⟨rfl, rfl, rfl⟩) fun _ => ⟨rfl, rfl, rfl⟩

theorem onFrame (f : Surface → Surface) : Blind K (onFrame f) := drawn f f

theorem drawObject (m : Moment) (slot : Nat) : Blind K (drawObject m slot) :=
  look (fun _ => rfl) fun _ => (lift _).bind fun _ => (lift _).bind fun _ => onFrame _

theorem drawBox (b : SceneBox) : Blind K (drawBox b) := Abreast.look fun _ _ _ => drawn _ _

theorem drawLayers (m : Moment) (leaveOut : Nat → Bool) (l : List Layer) : Blind K (drawLayers m leaveOut l) := by
  induction l with
  | nil => exact value _
  | cons a l ih =>
    cases a with
    | object rank slot => exact first (drawObject m slot) ih
    | box b => exact (drawBox b).bind fun _ => ih

theorem drawBanner : Blind K drawBanner := by
  refine look (fun _ => rfl) fun g => ite ?_ (value _)
  split
  · exact value _
  · exact (lift _).bind fun _ => onFrame _

theorem nextLifeFrame : Blind K (onUi Interface.nextLifeFrame) := change fun _ => ⟨rfl, rfl, rfl⟩

theorem drawInterface : Blind K drawInterface := by
  refine drawBanner.bind fun _ => Abreast.look fun g g' h => (drawn _ _).bind fun _ => ?_
  rw [h.same (·.ui.lifeBarShown) fun _ => rfl]
  exact .ite ((drawn _ _).bind fun _ => nextLifeFrame) (value _)

/-- A change of the screen, of the window and of the frame. -/
theorem shows_paint {f : Game → Stage → Stage} (hf : ∀ g, Stage.Paints (f g)) {ui : Game → Interface}
    (hui : ∀ g, (ui g).blank = g.ui.blank) (frame : Game → Surface) :
    Shows fun g => { g with stage := f g g.stage, ui := ui g, frame := frame g } := by
  intro g
  obtain ⟨hbare, hmixer⟩ := hf g g.stage
  refine ⟨?_, congrArg (·.voices g.sound.id) hmixer, rfl⟩
  exact (congrArg (fun s => { g.bare with stage := s, ui := (ui g).blank }) hbare).trans
    (congrArg (fun ui => { g.bare with ui := ui }) (hui g))

theorem showFrame : Blind K showFrame :=
  have hshows := shows_paint (fun _ => Stage.paints_copyRect _ _ _ _ _ _ _) (fun _ => rfl) Game.background
  shown hshows hshows

theorem drawScene : Blind K drawScene :=
  look (fun _ => rfl) fun _ => (drawLayers _ _ _).bind fun _ => first drawInterface showFrame

theorem usePalette : Blind K usePalette := by
  have hshows : Shows fun g =>
      if g.tables.loaded = .nothing then g else { g with stage := g.stage.setPalette g.palette 256 } := by
    intro g
    beta_reduce
    split
    · exact ⟨rfl, rfl, rfl⟩
    · exact shows_paint (fun g => Stage.paints_setPalette g.palette 256) (fun _ => rfl) Game.frame g
  exact shown hshows hshows

/-! ### The bag -/

theorem selectSword : Blind K selectSword :=
  look (fun _ => rfl) fun _ => ite ((setVar _ _).bind fun _ => setVar _ _) (value _)

theorem selectGun : Blind K selectGun :=
  look (fun _ => rfl) fun _ => ite ((setVar _ _).bind fun _ => setVar _ _) (value _)

theorem clickBag (x y : Int) : Blind K (clickBag x y) :=
  (onBag _).bind fun _ => look (fun _ => rfl) fun _ => first selectGun (ite selectSword (value _))

theorem takeDirection (i : Input) (d : Direction) : Blind K (takeDirection i d) :=
  ite ((onInput _).bind fun _ => value _) (value _)

theorem drawBag : Blind K drawBag := by
  have hui (g : Game) : (g.ui.drawWindow g.demo g.vars g.bag).2.blank = g.ui.blank :=
    congrArg (fun w => { g.ui with window := w }) (PlacedSprite.blank_drawAll _ _)
  exact Abreast.modifies fun _ _ h =>
    Shows.alike (shows_paint (fun _ => Stage.paints_copyRect _ _ _ _ _ _ _) hui Game.frame)
      (shows_paint (fun _ => Stage.paints_copyRect _ _ _ _ _ _ _) hui Game.frame) h

theorem nextFrames : Blind K (modify fun g => { g with ui := g.ui.nextFrames g.vars g.bag } : M Unit) :=
  change fun g => ⟨congrArg (fun ui => { g.bare with ui := ui }) (g.ui.blank_nextFrames g.vars g.bag), rfl, rfl⟩

/-- A step that is taken when a direction is held, and what follows. -/
theorem direction (i : Input) (d : Direction) {m n : M Unit} (hm : Blind K m) (hn : Blind K n) : Blind K (do
    if ← Game.takeDirection i d then m
    n) := (takeDirection i d).bind fun _ => first hm hn

theorem bagFrame : Blind K bagFrame := by
  have rest (i : Input) : Blind K (do
      if i.tab || i.enter then
        Game.onInput fun i => { i with tab := false, enter := false }
        modify fun g => { g with mode := .game }
      else
        if ← Game.takeDirection i .left then Game.onBag Bag.moveLeft
        if ← Game.takeDirection i .right then Game.onBag Bag.moveRight
        if ← Game.takeDirection i .down then Game.selectSword
        if ← Game.takeDirection i .up then Game.selectGun
        Game.drawBag
        modify fun g => { g with ui := g.ui.nextFrames g.vars g.bag } : M Unit) :=
    ite ((onInput _).bind fun _ => change fun _ => ⟨rfl, rfl, rfl⟩) <|
      direction i .left (onBag _) <| direction i .right (onBag _) <| direction i .down selectSword <|
        direction i .up selectGun <| drawBag.bind fun _ => nextFrames
  exact input.bind fun i => look (fun _ => rfl) fun _ =>
    ite ((onInput _).bind fun _ => (clickBag _ _).bind fun _ => rest i) (rest i)

/-! ### Dialogues -/

theorem followEvent (e : DialogueEvent) : Blind K (followEvent e) := by
  cases e with
  | speak file => exact startSound file
  | silence => exact stopSound
  | _ => exact value _

theorem beginDialogue : Blind K beginDialogue := by
  have dialogue (name : String) : Blind K (readDialogue name) :=
    (readFile _).bind fun _ => (lift _).bind fun _ => value _
  exact (playMusic _).bind fun _ => look (fun _ => rfl) fun _ => (readFile _).bind fun _ => (readResource _ _).bind fun _ =>
    (readResource _ _).bind fun _ => (readResource _ _).bind fun _ => (dialogue _).bind fun _ =>
      bind (change fun _ => ⟨rfl, rfl, rfl⟩) fun _ => (followEvent _).bind fun _ => (onInput _).bind fun _ =>
        change fun _ => ⟨rfl, rfl, rfl⟩

theorem onDialogue (f : Dialogue → DialogueEvent × Dialogue) : Blind K (onDialogue f) := by
  refine Abreast.modifiesGet fun g g' h => ?_
  rw [h.same Game.conversation fun _ => rfl]
  cases g'.conversation with
  | none => exact ⟨rfl, h⟩
  | some c =>
    exact ⟨rfl, Plain.alike (f := fun g => { g with conversation := some { c with dialogue := (f c.dialogue).2 } })
      (fun _ => ⟨rfl, rfl, rfl⟩) h⟩

theorem leaveDialogue : Blind K leaveDialogue := change fun _ => ⟨rfl, rfl, rfl⟩

theorem drawDialogueScene : Blind K drawDialogueScene := by
  refine look (fun _ => rfl) fun _ => (drawLayers _ _ _).bind fun _ => ?_
  have hpaints (c : Prop) [Decidable c] (a : Rect) (buffer : ByteArray) (pitch : Nat) : Stage.Paints fun s : Stage =>
      (if c then s.copyRect a.x a.y a.w a.h buffer pitch false else s).darkenRect a.x a.y a.w a.h :=
    ((Stage.paints_copyRect _ _ _ _ _ _ _).ite .id).comp (Stage.paints_darkenRect _ _ _ _)
  exact Abreast.modifies fun _ _ h =>
    Shows.alike (shows_paint (fun _ => hpaints _ _ _ _) (fun _ => rfl) Game.frame)
      (shows_paint (fun _ => hpaints _ _ _ _) (fun _ => rfl) Game.frame) h

theorem eraseObject (slot : Nat) : Blind K (eraseObject slot) := by
  refine Abreast.look fun g g' h => ?_
  rw [Game.object, Game.object, h.same Game.tables fun _ => rfl]
  exact .ite (.bind (.lift _) fun _ => drawn _ _) (value _)

theorem eraseObjects (l : List Nat) : Blind K (eraseObjects l) := by
  induction l with
  | nil => exact value _
  | cons i l ih => exact (eraseObject i).bind fun _ => ih

theorem showSprite (x y : Int) (w h : Nat) (sprite : ByteArray) : Blind K (showSprite x y w h sprite) :=
  onStage fun _ _ _ _ h => h.paint (Stage.paints_copyRect _ _ _ _ _ _ _) (Stage.paints_copyRect _ _ _ _ _ _ _)

theorem showHead (c : Conversation) (speaker : Speaker) (x y : Int) (w h n : Nat) : Blind K (
    match (c.heads.get speaker)[n]? with
    | none => pure ()
    | some packed => do
      Game.showSprite x y w h (← ofExcept (GameError.wrap .codec (Lzss.decode packed)))
      modify fun g => { g with
        conversation := some { c with head := c.head.set speaker ((n + 1) % (c.heads.get speaker).length) } } :
    M Unit) := by
  split
  · exact value _
  · exact (lift _).bind fun _ => (showSprite _ _ _ _ _).bind fun _ => change fun _ => ⟨rfl, rfl, rfl⟩

theorem drawSpeaker (c : Conversation) (speaker : Speaker) : Blind K (drawSpeaker c speaker) :=
  (lift _).bind fun _ => bind (change fun _ => ⟨rfl, rfl, rfl⟩) fun _ => (showSprite _ _ _ _ _).bind fun _ =>
    showHead _ _ _ _ _ _ _

theorem drawDialogue : Blind K drawDialogue := by
  refine drawDialogueScene.bind fun _ => look (fun _ => rfl) fun _ => (eraseObjects _).bind fun _ =>
    look (fun _ => rfl) fun _ => ?_
  split
  · exact value _
  · exact (drawSpeaker _ _).bind fun _ => look (fun _ => rfl) fun _ =>
      ite (bind (change fun _ => ⟨rfl, rfl, rfl⟩) fun _ => leaveDialogue) (value _)

theorem goOn : Blind K goOn := by
  refine (onDialogue _).bind fun e => ?_
  split
  · exact leaveDialogue.bind fun _ => value _
  · exact bind (change fun _ => ⟨rfl, rfl, rfl⟩) fun _ => leaveDialogue.bind fun _ => value _
  · exact (followEvent _).bind fun _ => value _

theorem chooseLine (i : Input) : Blind K (chooseLine i) :=
  first (onDialogue _).discard <| first (onDialogue _).discard <| onInput _

theorem dialogueFrame : Blind K dialogueFrame := by
  have speak : Blind K (do
      let g ← get
      let ended ← if g.isSelected && g.soundOver then Game.goOn else pure false
      if !ended then Game.drawDialogue) := by
    have draw (ended : Bool) : Blind K (if !ended then Game.drawDialogue else pure ()) := ite drawDialogue (value _)
    refine Abreast.look fun g g' h => ?_
    rw [soundOver h, h.same Game.isSelected fun _ => rfl]
    exact .ite (goOn.bind draw) ((value _).bind draw)
  exact input.bind fun i => look (fun _ => rfl) fun _ => ite leaveDialogue <| (chooseLine i).bind fun _ =>
    ite ((onInput _).bind fun _ => leaveDialogue) <|
      ite ((onInput _).bind fun _ => (onDialogue _).bind fun _ => (followEvent _).bind fun _ => speak) speak

theorem endDialogue : Blind K endDialogue :=
  bind (change fun _ => ⟨rfl, rfl, rfl⟩) fun _ => look (fun _ => rfl) fun _ => (playMusic _).bind fun _ => clearKeys

/-! ### Cutscenes and the end of a frame -/

theorem onMixer {f : Mixer → Mixer} {F : Voices → Voices} (hf : ∀ m id, (f m).voices id = F (m.voices id))
    (hF : ∀ v, (F v).sounds.length = v.sounds.length) : Blind K (onMixer f) := onStage fun _ _ _ _ h => h.mixer hf hF

theorem playVideo (path : String) : Blind K (playVideo path) := by
  refine look (fun _ => rfl) fun g => ?_
  split
  · exact value _
  · rename_i file _
    have hblack : Blind K (Game.onStage fun s => (s.fillRect 0 0 screenWidth screenHeight 0).present) :=
      onStage fun _ _ _ _ h => (h.paint (Stage.paints_fillRect _ _ _ _ _) (Stage.paints_fillRect _ _ _ _ _)).present
    refine hblack.bind fun _ => (onMixer Mixer.voices_stopAll Voices.length_stopAll).bind fun _ g g' h => ?_
    have hplay := Playback.abreast_play file.content _ _ h.stage
    cases hg : Playback.play file.content g.stage <;> cases hg' : Playback.play file.content g'.stage <;>
      rw [hg, hg'] at hplay
    · exact ⟨congrArg some hplay.1, h.onStage hplay.2⟩
    · exact hplay.elim
    · exact hplay.elim
    · exact congrArg GameError.video hplay

theorem dropBehind (anim : Int) : Blind K (dropBehind anim) :=
  look (fun _ => rfl) fun _ => (lift _).bind fun _ => (onTables _).bind fun _ => stopSound

theorem checkOver : Blind K checkOver :=
  look (fun _ => rfl) fun _ => ite (bind (change fun _ => ⟨rfl, rfl, rfl⟩) fun _ => (playMusic _).bind fun _ =>
    change fun _ => ⟨rfl, rfl, rfl⟩) (value _)

theorem drawObjects : Blind K drawObjects :=
  drawScene.bind fun _ => (onTables _).bind fun _ => look (fun _ => rfl) fun _ => advanceObjects _

theorem finishStory : Blind K finishStory :=
  look (fun _ => rfl) fun _ => ite (stopMusic.bind fun _ => (dropBehind _).bind fun _ => (setVar _ _).bind fun _ =>
    (playVideo _).discard.bind fun _ => change fun _ => ⟨rfl, rfl, rfl⟩) (value _)

/-- The frame ends on stages that are alike. -/
theorem ended {g g' : Game} (h : Alike K g g') {s t : Stage} (hst : Stage.Alike g.sound.id g'.sound.id s t) :
    Alike K { g with stage := s, lastFrame := s.now } { g' with stage := t, lastFrame := t.now } := by
  rw [hst.same Stage.now fun _ => rfl]
  exact Plain.alike (f := fun g => { g with lastFrame := t.now }) (fun _ => ⟨rfl, rfl, rfl⟩) (h.onStage hst)

theorem endFrame : Blind K endFrame := by
  refine Abreast.modifies fun g g' h => ?_
  rw [h.same Game.lastFrame fun _ => rfl]
  exact ended h (h.stage.present.waitUntil _ _)

end Blind

end Game

end Adventure
