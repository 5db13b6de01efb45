import Adventure.Game.Start
import Adventure.Proofs.Abreast
import Adventure.Proofs.Sound.Voices

/-! Games that differ in what nothing looks at: the pictures, how sounds are numbered, and how many
frames there were. Whatever is done to two such games comes to the same. -/

namespace Adventure

/-! ### Stages -/

def FrameRecord.bare (r : FrameRecord) : FrameRecord := { r with picture := ByteArray.empty }

namespace Stage

/-- A stage without its pictures and its mixer. -/
def bare (s : Stage) : Stage :=
  { s with
    palette := ByteArray.empty
    screen := ByteArray.empty
    overlayFrame := ByteArray.empty
    recent := s.recent.map FrameRecord.bare
    mixer := Mixer.ofRate 0 }

/-- Two stages that show different pictures at most, and are heard alike by games that follow the sounds
with these ids. -/
structure Alike (i j : Int) (s t : Stage) : Prop where
  bare : s.bare = t.bare
  voices : s.mixer.voices i = t.mixer.voices j
  room : (s.mixer.voices i).sounds.length ≤ 16

theorem presented_bare (s : Stage) : s.bare.presented = s.presented := by
  unfold presented bare
  cases s.recent <;> rfl

theorem bare_bare (s : Stage) : s.bare.bare = s.bare := by
  simp [bare, FrameRecord.bare, Function.comp_def]

theorem bare_present (s : Stage) : s.present.bare = s.bare.present.bare := by
  have hrecent : (s.recent.map FrameRecord.bare).map FrameRecord.bare = s.recent.map FrameRecord.bare :=
    congrArg Stage.recent s.bare_bare
  have htake : (s.recent.take (maxRecent - 1)).map FrameRecord.bare =
      ((s.recent.map FrameRecord.bare).take (maxRecent - 1)).map FrameRecord.bare := by
    rw [List.map_take, List.map_take, hrecent]
  unfold present
  rw [s.presented_bare]
  simp only [bare, List.map_cons, htake]
  rfl

theorem bare_processEvents (s : Stage) : s.processEvents.bare = s.bare.processEvents := by
  unfold processEvents
  rw [s.presented_bare]
  rfl

/-- The time that passes, and how much sound there was in it. -/
def pass (s : Stage) (ms : UInt32) : Stage :=
  { s with now := s.now + ms, mixed := if s.audible then s.mixed + s.outputRate * ms.toNat / 1000 else s.mixed }

theorem sleep_audible {s : Stage} (h : s.audible = true) (ms : UInt32) :
    s.sleep ms = { s.pass ms with mixer := (s.mixer.mix (s.outputRate * ms.toNat / 1000)).2 } := by
  simp [sleep, pass, h]

theorem sleep_silent {s : Stage} (h : ¬ s.audible = true) (ms : UInt32) : s.sleep ms = s.pass ms := by
  simp [sleep, pass, h]

theorem bare_sleep (s : Stage) (ms : UInt32) : (s.sleep ms).bare = s.bare.pass ms := by
  by_cases haudible : s.audible = true
  · rw [sleep_audible haudible]
    rfl
  · rw [sleep_silent haudible]
    rfl

/-- The mixer goes on as long as it can be heard. -/
theorem voices_sleep (s : Stage) (ms : UInt32) (i : Int) : (s.sleep ms).mixer.voices i =
    if s.audible then (s.mixer.voices i).mixed (s.outputRate * ms.toNat / 1000) else s.mixer.voices i := by
  by_cases haudible : s.audible = true
  · rw [sleep_audible haudible, if_pos haudible]
    exact Mixer.voices_mix _ _ _
  · rw [sleep_silent haudible, if_neg haudible]
    rfl

/-- A step of the stage that changes nothing but pictures. -/
def Paints (f : Stage → Stage) : Prop := ∀ s, (f s).bare = s.bare ∧ (f s).mixer = s.mixer

namespace Paints

variable {f f' : Stage → Stage}

theorem id : Paints fun s => s := fun _ => ⟨rfl, rfl⟩

theorem comp (hf : Paints f) (hf' : Paints f') : Paints fun s => f' (f s) := fun s =>
  ⟨(hf' (f s)).1.trans (hf s).1, (hf' (f s)).2.trans (hf s).2⟩

theorem ite {c : Prop} [Decidable c] (hf : Paints f) (hf' : Paints f') : Paints fun s => if c then f s else f' s := by
  intro s
  beta_reduce
  split
  · exact hf s
  · exact hf' s

end Paints

theorem paints_changeRect (f : Rgb → Rgb) (x y w h : Int) : Paints fun s => s.changeRect f x y w h := by
  intro s
  unfold changeRect
  split <;> exact ⟨rfl, rfl⟩

theorem paints_fillRect (x y w h : Int) (c : UInt8) : Paints fun s => s.fillRect x y w h c :=
  fun s => paints_changeRect _ x y w h s

theorem paints_darkenRect (x y w h : Int) : Paints fun s => s.darkenRect x y w h := paints_changeRect _ x y w h

theorem paints_copyRect (x y w h : Int) (buffer : ByteArray) (pitch : Nat) (transparent : Bool) :
    Paints fun s => s.copyRect x y w h buffer pitch transparent := by
  intro s
  unfold copyRect
  split <;> exact ⟨rfl, rfl⟩

theorem paints_setOverlay (buffer : ByteArray) (pitch : Nat) : Paints fun s => s.setOverlay buffer pitch := by
  intro s
  simp only [setOverlay]
  split <;> exact ⟨rfl, rfl⟩

theorem paints_setPalette (colors : ByteArray) (n : Nat) : Paints fun s => s.setPalette colors n :=
  fun _ => ⟨rfl, rfl⟩

namespace Alike

variable {i j : Int} {s t : Stage} (h : Alike i j s t)
include h

theorem paint {f f' : Stage → Stage} (hf : Paints f) (hf' : Paints f') : Alike i j (f s) (f' t) where
  bare := ((hf s).1.trans h.bare).trans (hf' t).1.symm
  voices := by rw [(hf s).2, (hf' t).2, h.voices]
  room := by rw [(hf s).2]; exact h.room

/-- A step that looks at no picture, and leaves the mixer as it is. -/
theorem change {f : Stage → Stage} (hf : ∀ s, (f s).bare = f s.bare ∧ (f s).mixer = s.mixer) :
    Alike i j (f s) (f t) where
  bare := by rw [(hf s).1, (hf t).1, h.bare]
  voices := by rw [(hf s).2, (hf t).2, h.voices]
  room := by rw [(hf s).2]; exact h.room

theorem present : Alike i j s.present t.present := ⟨by rw [s.bare_present, t.bare_present, h.bare], h.voices, h.room⟩

theorem processEvents : Alike i j s.processEvents t.processEvents :=
  h.change fun s => ⟨s.bare_processEvents, rfl⟩

/-- The part of two stages that is no picture and no sound. -/
theorem same {τ : Type} (f : Stage → τ) (hf : ∀ s, f s = f s.bare) : f s = f t := by
  rw [hf s, hf t, h.bare]

theorem sleep (ms : UInt32) : Alike i j (s.sleep ms) (t.sleep ms) where
  bare := by rw [bare_sleep, bare_sleep, h.bare]
  voices := by
    rw [voices_sleep, voices_sleep, h.voices, h.same audible fun _ => rfl, h.same outputRate fun _ => rfl]
  room := by
    rw [voices_sleep]
    split
    · rw [Voices.length_mixed]
      exact h.room
    · exact h.room

theorem waitUntil (time : UInt32) (n : Nat) : Alike i j (Game.waitUntil time n s) (Game.waitUntil time n t) := by
  induction n generalizing s t with
  | zero => exact h
  | succ n ih =>
    have hnext := (h.sleep 10).processEvents
    unfold Game.waitUntil
    simp only [hnext.same (·.input.fast) fun _ => rfl, hnext.same now fun _ => rfl, hnext.same quit fun _ => rfl]
    split
    · exact hnext
    · exact ih hnext

/-! ### The mixer -/

/-- A step of the mixer that does not look at how sounds are numbered. -/
theorem mixer {f : Mixer → Mixer} {F : Voices → Voices} (hf : ∀ m id, (f m).voices id = F (m.voices id))
    (hF : ∀ v, (F v).sounds.length = v.sounds.length) :
    Alike i j { s with mixer := f s.mixer } { t with mixer := f t.mixer } where
  bare := h.bare
  voices := by simp only [hf, h.voices]
  room := by simp only [hf, hF, h.room]

theorem stopAll : Alike i j { s with mixer := s.mixer.stopAll } { t with mixer := t.mixer.stopAll } :=
  h.mixer Mixer.voices_stopAll Voices.length_stopAll

theorem stop : Alike i j { s with mixer := s.mixer.stop i } { t with mixer := t.mixer.stop j } where
  bare := h.bare
  voices := by simp only [Mixer.voices_stop, h.voices]
  room := by simp only [Mixer.voices_stop, Voices.length_stop, h.room]

theorem isPlaying : s.mixer.isPlaying i = t.mixer.isPlaying j := by
  rw [Mixer.isPlaying_eq, Mixer.isPlaying_eq, h.voices]

/-- A sound is started on both stages or on none of them. -/
theorem play (file : ByteArray) : match s.mixer.play file, t.mixer.play file with
    | .ok (i, m), .ok (j, n) => Alike i j { s with mixer := m } { t with mixer := n }
    | .error _, .error _ => True
    | _, _ => False := by
  have hs := Mixer.voices_play s.mixer i h.room file
  have ht := Mixer.voices_play t.mixer j (h.voices ▸ h.room) file
  rw [← h.voices] at ht
  have hboth := hs.trans ht.symm
  cases hms : s.mixer.play file <;> cases hmt : t.mixer.play file <;> rw [hms, hmt] at hboth
  · trivial
  · cases hboth
  · cases hboth
  · rw [hms] at hs
    refine ⟨h.bare, Option.some.inj hboth, ?_⟩
    rw [Voices.length_play hs.symm]
    exact h.room

end Alike

end Stage

/-! ### Games -/

/-- What is set anew in every frame before anything looks at it. -/
structure Marks where
  firstRests : Bool
  requested : Option NextScene
  leftClick : Bool
  rightClick : Bool

namespace Game

def marks (g : Game) : Marks := ⟨g.firstRests, g.requested, g.leftClick, g.rightClick⟩

/-- A game without its marks, without what is drawn, and without the number of its sound. -/
def bare (g : Game) : Game :=
  { g with
    stage := g.stage.bare
    ui := { g.ui with window := { g.ui.window with bits := ByteArray.empty } }
    palette := ByteArray.empty
    background := {}
    frame := {}
    firstRests := false
    requested := none
    sound := { g.sound with id := Mixer.noSound }
    leftClick := false
    rightClick := false
    framesRun := 0 }

def voices (g : Game) : Voices := g.stage.mixer.voices g.sound.id

/-- Two games that differ in what is shown, in how sounds are numbered, and in marks that are related. -/
structure Alike (K : Marks → Marks → Prop) (g g' : Game) : Prop where
  bare : g.bare = g'.bare
  voices : g.voices = g'.voices
  room : g.voices.sounds.length ≤ 16
  marks : K g.marks g'.marks

variable {K : Marks → Marks → Prop}

namespace Alike

variable {g g' : Game} (h : Alike K g g')
include h

/-- A part of two games that is none of these. -/
theorem same {τ : Type} (f : Game → τ) (hf : ∀ g, f g = f g.bare) : f g = f g' := by
  rw [hf g, hf g', h.bare]

theorem stage : Stage.Alike g.sound.id g'.sound.id g.stage g'.stage := ⟨congrArg Game.stage h.bare, h.voices, h.room⟩

/-- Other stages that are alike. -/
theorem onStage {s t : Stage} (hst : Stage.Alike g.sound.id g'.sound.id s t) :
    Alike K { g with stage := s } { g' with stage := t } where
  bare := by
    have hrest := congrArg (fun g : Game => { g with stage := s.bare }) h.bare
    exact hrest.trans (congrArg (fun u => ({ g'.bare with stage := u } : Game)) hst.bare)
  voices := hst.voices
  room := hst.room
  marks := h.marks

end Alike

/-- A change that looks at nothing that may differ, and neither starts a sound nor sets a mark. -/
def Plain (f : Game → Game) : Prop := ∀ g, (f g).bare = f g.bare ∧ (f g).voices = g.voices ∧ (f g).marks = g.marks

/-- A change of what is shown. -/
def Shows (f : Game → Game) : Prop := ∀ g, (f g).bare = g.bare ∧ (f g).voices = g.voices ∧ (f g).marks = g.marks

theorem Plain.alike {f : Game → Game} (hf : Plain f) {g g' : Game} (h : Alike K g g') : Alike K (f g) (f g') := by
  obtain ⟨hbare, hvoices, hmarks⟩ := hf g
  obtain ⟨hbare', hvoices', hmarks'⟩ := hf g'
  refine ⟨?_, ?_, ?_, ?_⟩
  · rw [hbare, hbare', h.bare]
  · rw [hvoices, hvoices', h.voices]
  · rw [hvoices]
    exact h.room
  · rw [hmarks, hmarks']
    exact h.marks

theorem Shows.alike {f f' : Game → Game} (hf : Shows f) (hf' : Shows f') {g g' : Game} (h : Alike K g g') :
    Alike K (f g) (f' g') := by
  obtain ⟨hbare, hvoices, hmarks⟩ := hf g
  obtain ⟨hbare', hvoices', hmarks'⟩ := hf' g'
  refine ⟨?_, ?_, ?_, ?_⟩
  · rw [hbare, hbare', h.bare]
  · rw [hvoices, hvoices', h.voices]
  · rw [hvoices]
    exact h.room
  · rw [hmarks, hmarks']
    exact h.marks

/-- Steps that come to the same in games that are alike. -/
def Level (K : Marks → Marks → Prop) {α : Type} (m n : M α) : Prop := Abreast (Alike K) (Alike K) m n

/-- A step that comes to the same in games that are alike. -/
def Blind (K : Marks → Marks → Prop) {α : Type} (m : M α) : Prop := Level K m m

namespace Blind

variable {α β : Type} {m n : M α}

theorem value (a : α) : Blind K (pure a) := Abreast.value a

theorem fault (e : GameError) : Blind K (throw e : M α) := Abreast.fault e

theorem lift (e : Except GameError α) : Blind K (ofExcept e : M α) := Abreast.lift e

theorem bind {f : α → M β} (hm : Blind K m) (hf : ∀ a, Blind K (f a)) : Blind K (m >>= f) := Abreast.bind hm hf

theorem ite {c : Prop} [Decidable c] (hm : Blind K m) (hn : Blind K n) : Blind K (if c then m else n) := Abreast.ite hm hn

theorem discard (hm : Blind K m) : Blind K (discard m) := Abreast.discard hm

/-- A step that is taken or not, and what follows. -/
theorem first {c : Prop} [Decidable c] {m : M Unit} (hm : Blind K m) (hn : Blind K n) : Blind K (do
    if c then m
    n) := ite (hm.bind fun _ => hn) hn

/-- A step that looks at nothing that may differ. -/
theorem look {f : Game → M α} (hread : ∀ g, f g = f g.bare) (hf : ∀ g, Blind K (f g)) : Blind K (get >>= f) :=
  Abreast.look fun g g' h => by
    rw [hread g, hread g', h.bare]
    exact hf _

theorem change {f : Game → Game} (hf : Plain f) : Blind K (modify f) := Abreast.modifies fun _ _ h => hf.alike h

theorem onTables (f : SceneTables → SceneTables) : Blind K (onTables f) := change fun _ => ⟨rfl, rfl, rfl⟩

theorem onObject (i : Nat) (f : SceneObject → SceneObject) : Blind K (onObject i f) := onTables _

theorem onInput (f : Input → Input) : Blind K (onInput f) := change fun _ => ⟨rfl, rfl, rfl⟩

theorem onBag (f : Bag → Bag) : Blind K (onBag f) := change fun _ => ⟨rfl, rfl, rfl⟩

theorem setVar (i : Fin numVars) (v : Int16) : Blind K (setVar i v) := change fun _ => ⟨rfl, rfl, rfl⟩

theorem clearKeys : Blind K clearKeys := change fun _ => ⟨rfl, rfl, rfl⟩

theorem input : Blind K input := look (fun _ => rfl) fun _ => value _

theorem readFile (name : String) : Blind K (readFile name) := look (fun _ => rfl) fun _ => lift _

theorem readResource (decode : ByteArray → Except ResourceError α) (name : String) :
    Blind K (readResource decode name) := (readFile name).bind fun _ => lift _

theorem onStage {f : Stage → Stage} (hf : ∀ i j s t, Stage.Alike i j s t → Stage.Alike i j (f s) (f t)) :
    Blind K (onStage f) := Abreast.modifies fun _ _ h => h.onStage (hf _ _ _ _ h.stage)

/-- Tables by themselves have nothing that may differ. -/
theorem withTables (m : SceneTables.M α) : Blind K (withTables m) := by
  intro g g' h
  have htables : g.tables = g'.tables := h.same Game.tables fun _ => rfl
  simp only [Game.withTables, htables]
  cases m g'.tables with
  | ok a t => exact ⟨rfl, Plain.alike (f := fun g => { g with tables := t }) (fun _ => ⟨rfl, rfl, rfl⟩) h⟩
  | error e t => exact rfl

/-! ### Sound -/

theorem stopSound : Blind K stopSound := Abreast.modifies fun _ _ h => h.onStage h.stage.stop

theorem startSound (name : String) : Blind K (startSound name) := by
  refine Abreast.modifies fun g g' h => ?_
  rw [h.same (·.data.read? name) fun _ => rfl]
  split
  · exact h
  · rename_i file _
    have hplay := h.stage.play file
    cases hg : g.stage.mixer.play file <;> cases hg' : g'.stage.mixer.play file <;> rw [hg, hg'] at hplay
    · exact h
    · exact hplay.elim
    · exact hplay.elim
    · exact ⟨h.bare, hplay.voices, hplay.room, h.marks⟩

theorem soundOver {g g' : Game} (h : Alike K g g') : g.soundOver = g'.soundOver := by
  unfold Game.soundOver
  rw [h.stage.isPlaying]

theorem stopMusic : Blind K stopMusic := change fun _ => ⟨rfl, rfl, rfl⟩

theorem playMusic (name : String) : Blind K (playMusic name) := by
  unfold Game.playMusic
  generalize track? name = t
  cases name.isEmpty
  · exact change fun _ => ⟨rfl, rfl, rfl⟩
  · exact change fun _ => ⟨rfl, rfl, rfl⟩

end Blind

end Game

end Adventure
