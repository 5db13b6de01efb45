import Adventure.Proofs.Game.Names
import Adventure.Proofs.Save.Bag

/-! Games that are played, call by call. Names that movies and descriptions bring, the bag, and the saved games that can be
asked for are found in them as the calls have left them, so that what holds of the names that are brought and is kept
by whatever becomes of the bag and by saved games holds in every such game. The files of saved games have to be those of
games that were played. -/

namespace Adventure

/-! ### Saved games -/

/-- The bag of a saved game. -/
def SaveState.heldBag (s : SaveState) : Bag :=
  { entries := s.bag, x := s.bagX, y := s.bagY, action := s.bagAction, selected := s.bagObject }

namespace SaveFolder

/-- A saved game that can be asked for is in this slot. -/
def Loadable (saves : SaveFolder) (slot : Nat) (d : ByteArray) : Prop :=
  saves.readSlot? slot = some d ∧ ∃ h, SaveState.readHeader d = .ok h

/-- With a file put into a folder there is no other new file in it. -/
theorem find?_insert {file f : StoredFile} {files : List StoredFile} {name : String}
    (h : (insert file files).find? (fun f => f.path = name) = some f) : f = file ∨ files.find? (fun f => f.path = name) = some f := by
  rw [insert, List.find?_append, List.find?_filter] at h
  simp only [decide_eq_true_eq] at h
  cases hold : files.find? (fun a => a.path ≠ file.path ∧ a.path = name) with
  | none =>
    rw [hold, Option.none_or] at h
    exact Or.inl (List.mem_singleton.mp (List.mem_of_find?_eq_some h))
  | some f' =>
    rw [hold, Option.some_or] at h
    cases h
    obtain ⟨hother, hname⟩ : f.path ≠ file.path ∧ f.path = name := by simpa using List.find?_some hold
    have hsame (a : StoredFile) : (a.path ≠ file.path ∧ a.path = name) ↔ a.path = name :=
      and_iff_right_of_imp fun ha => by rwa [ha, ← hname]
    exact Or.inr (by simpa only [hsame] using hold)

theorem readSlot?_eq_some {saves : SaveFolder} {slot : Nat} {d : ByteArray} : saves.readSlot? slot = some d ↔
    ∃ files f, saves.files = some files ∧ files.find? (fun f => f.path = Settings.slotName slot) = some f ∧ f.content = d := by
  simp only [readSlot?, find?, Option.bind_eq_bind, Option.bind_eq_some_iff, Option.map_eq_some_iff]
  constructor
  · rintro ⟨files, hfiles, f, hf, hd⟩
    exact ⟨files, f, hfiles, hf, hd⟩
  · rintro ⟨files, f, hfiles, hf, hd⟩
    exact ⟨files, hfiles, f, hf, hd⟩

/-- With a game saved there is no other new file in any slot. -/
theorem readSlot?_writeSlot {saves saves' : SaveFolder} {slot slot' : Nat} {d d' : ByteArray}
    (h : saves.writeSlot? slot d = some saves') (hd' : saves'.readSlot? slot' = some d') :
    d' = d ∨ saves.readSlot? slot' = some d' := by
  obtain ⟨files, hfiles, rfl⟩ := Option.map_eq_some_iff.mp h
  obtain ⟨_, f, hfiles', hf, rfl⟩ := readSlot?_eq_some.mp hd'
  cases hfiles'
  obtain rfl | hold := find?_insert hf
  · exact Or.inl rfl
  · exact Or.inr (readSlot?_eq_some.mpr ⟨files, f, hfiles, hold, rfl⟩)

theorem not_loadable_empty {path : String} {slot : Nat} {d : ByteArray} : ¬(⟨path, some []⟩ : SaveFolder).Loadable slot d := by
  rintro ⟨hslot, -⟩
  cases hslot

end SaveFolder

namespace Game

variable {g g' : Game}

theorem orderly_snapshot (hbag : g.bag.entries.length ≤ maxBag) : g.snapshot.Orderly where
  defaultVars := Nat.le_of_eq g.defaultVars.length_toList
  objects := (List.length_take_le' _ _).trans (Nat.le_of_eq g.tables.objects.length_toList)
  boxCounts := Nat.le_of_eq ((List.length_map Int16.ofNat).trans g.tables.boxCounts.length_toList)
  boxes := Nat.le_of_eq g.tables.boxes.length_toList
  vars := Nat.le_of_eq g.vars.length_toList
  statuses := Nat.le_of_eq g.tables.statuses.length_toList
  bag := hbag

/-- What is read from the file of a saved game: the name of its scene, its bag and its names. -/
structure Stored (fits : Label → Prop) (fine : Bag → Prop) (d : ByteArray) : Prop where
  scene : ∀ h, SaveState.readHeader d = .ok h → fits (.scene h.sceneName)
  bag : ∀ s, SaveState.read d true = .ok s → fine s.heldBag
  labels : ∀ s, SaveState.read d true = .ok s → ∀ n ∈ s.labels, fits n

/-- What is asked of the labels in a game and of its bag. Names that are there from the start are so, an entry that a script
takes has the name of an object, the bag is so at the start and stays so however it changes, and so is what is saved. -/
structure LabelLaw (fits : Label → Prop) (fine : Bag → Prop) : Prop where
  unnamed : fits (.object "") ∧ fits (.objectClass "") ∧ fits (.scene "")
  scene : ∀ name ∈ "END.SCN" :: firstScenes, fits (.scene name)
  taken : ∀ {name}, fits (.object name) → fits (.entry name)
  empty : ∀ x y, fine { x, y }
  change : ∀ {known : String → Prop} {b b' : Bag}, b.Change known b' → fine b → fine b'
  saved : ∀ {g : Game} {d : ByteArray}, fine g.bag → (∀ n ∈ g.labels, fits n) → fits (.scene g.sceneFile) →
    g.snapshot.write = .ok d → Stored fits fine d

/-! ### Bags -/

theorem unstocked_bag : Unstocked Game.bag := fun _ _ _ _ _ _ _ _ => rfl

namespace LabelLaw

variable {fits : Label → Prop} {fine : Bag → Prop} (law : LabelLaw fits fine)
include law

theorem addBagEntry {name file : String} (hnew : SceneHost.hasBagEntry g name = false) :
    Leads (addBagEntry name file) g (fun _ g' => fine g.bag → fine g'.bag) fun g' => fine g.bag → fine g'.bag := by
  refine Leads.look (Leads.ite (fun _ => id) fun hroom => ?_)
  refine Leads.bind (Leads.look ((Leads.lift _ g).mono (fun data g' h => ?_) fun _ h => h ▸ id))
  obtain ⟨rfl, -⟩ := h
  have hmissing : g'.bag.find? name = none := Option.isNone_iff_eq_none.mp (Option.isSome_eq_false_iff.mp hnew)
  exact law.change (.adds data trivial (Nat.lt_of_not_le hroom) hmissing : g'.bag.Change (fun _ => True) _)

/-- Whatever a description says, the bag stays as it should be. -/
theorem hostActs : Description.HostActs (H := Game) (fun g g' => fine g.bag → fine g'.bag)
    fun g g' => fine g.bag → fine g'.bag := by
  have leaves {α : Type} {m : M α} (hm : Leaves Game.bag m) : Maintains (fun g : Game => fine g.bag) m := hm.maintains fine
  exact {
    chains := Chains.maintains _
    setSceneNumber := fun _ _ => id
    dropBehind := fun anim => leaves (unstocked_bag.dropBehind anim)
    expectMovie := fun _ => id
    loadMovie := fun name => leaves (unstocked_bag.loadMovie name)
    loadScreen := fun name => leaves (unstocked_bag.loadScreen name)
    setMusic := fun name g => unstocked_bag.setMusic name g ▸ id
    setTrack := fun _ _ => id
    modifyObject := fun _ _ _ _ => id
    setClass := fun _ _ _ => id
    setBagPosition := fun x y g => law.change (.places x y : g.bag.Change (fun _ => True) _)
    addBagEntry := fun _ _ _ => law.addBagEntry
    addNextScene := fun s => leaves (unstocked_bag.addNextScene s)
    pushBox := fun _ _ _ _ => id }

theorem readScene (name : String) : Maintains (fun g : Game => fine g.bag) (readScene name) :=
  have hC := Chains.maintains fun g : Game => fine g.bag
  hC.bind (hC.look fun _ => hC.lift _) fun _ => Description.parse_within law.hostActs (fun _ => id) _

end LabelLaw

/-- The part of a game, besides its tables, in which the bag and names are kept. -/
structure Keeping where
  data : DataDir
  saves : SaveFolder
  bag : Bag
  firstScene : String
  sceneFile : String
  nextFile : String
  requested : Option NextScene

def keeping (g : Game) : Keeping := ⟨g.data, g.saves, g.bag, g.firstScene, g.sceneFile, g.nextFile, g.requested⟩

theorem unstocked_keeping : Unstocked keeping := fun _ _ _ _ _ _ _ _ => rfl

/-- The same without the bag. -/
def beside (g : Game) : Keeping := { g.keeping with bag := {} }

theorem unloaded_beside : Unloaded beside := fun _ _ _ _ _ _ _ _ _ => rfl

/-! ### What calls maintain -/

/-- Labels that fit and a bag as it should be, in a game, in those of its saved games that can be loaded, and in what is
brought by the loads that are looked at. -/
structure Tidy (fits : Label → Prop) (fine : Bag → Prop) (loads : M Unit → Prop) (g : Game) : Prop where
  brings : ∀ load n, loads load → g.data.Brings load n → fits n
  bag : fine g.bag
  labels : ∀ n ∈ g.labels, fits n
  firstScene : fits (.scene g.firstScene)
  sceneFile : fits (.scene g.sceneFile)
  nextFile : fits (.scene g.nextFile)
  requested : ∀ s ∈ g.requested, fits (.scene s.name)
  slots : ∀ slot d, g.saves.readSlot? slot = some d → Stored fits fine d

variable {fits : Label → Prop} {fine : Bag → Prop} {loads loads' : M Unit → Prop}

namespace Tidy

theorem mono (h : g.Tidy fits fine loads) (hbrings : ∀ load n, loads' load → g.data.Brings load n → fits n) :
    g.Tidy fits fine loads' :=
  ⟨hbrings, h.bag, h.labels, h.firstScene, h.sceneFile, h.nextFile, h.requested, h.slots⟩

/-- Besides the bag everything is as it was. -/
theorem congr (h : g.Tidy fits fine loads) (hbeside : g'.beside = g.beside) (hbag : fine g'.bag)
    (hlabels : ∀ n ∈ g'.labels, fits n) : g'.Tidy fits fine loads := by
  have hdata : g'.data = g.data := congrArg Keeping.data hbeside
  have hsaves : g'.saves = g.saves := congrArg Keeping.saves hbeside
  have hfirst : g'.firstScene = g.firstScene := congrArg Keeping.firstScene hbeside
  have hscene : g'.sceneFile = g.sceneFile := congrArg Keeping.sceneFile hbeside
  have hnext : g'.nextFile = g.nextFile := congrArg Keeping.nextFile hbeside
  have hrequested : g'.requested = g.requested := congrArg Keeping.requested hbeside
  exact ⟨hdata ▸ h.brings, hbag, hlabels, hfirst ▸ h.firstScene, hscene ▸ h.sceneFile, hnext ▸ h.nextFile,
    hrequested ▸ h.requested, hsaves ▸ h.slots⟩

theorem of_keeping (h : g.Tidy fits fine loads) (hkeeping : g'.keeping = g.keeping) (hlabels : Adds fits g.labels g'.labels) :
    g'.Tidy fits fine loads :=
  have hbag : g'.bag = g.bag := congrArg Keeping.bag hkeeping
  h.congr (congrArg (fun k : Keeping => { k with bag := {} }) hkeeping) (hbag ▸ h.bag) (hlabels.all h.labels)

theorem of_core (h : g.Tidy fits fine loads) (hcore : g'.core = g.core) : g'.Tidy fits fine loads :=
  h.of_keeping (congrArg (fun c : Core => (⟨c.data, c.saves, c.bag, c.firstScene, c.sceneFile, c.nextFile, c.requested⟩ : Keeping)) hcore)
    (adds_of_core hcore)

/-- What is loaded is looked at. -/
theorem load {load : M Unit} (hload : loads load) (hbeside : Leaves beside load) (hbag : Maintains (fun g : Game => fine g.bag) load) :
    Maintains (Tidy fits fine loads) load := fun g => by
  have labels {t : Game} (ht : t = after load g) (h : g.Tidy fits fine loads) : ∀ n ∈ t.labels, fits n := fun n hn => by
    by_cases hold : n ∈ g.labels
    · exact h.labels n hold
    · exact h.brings load n hload ⟨g, rfl, hold, ht ▸ hn⟩
  refine (((hbeside g).and (hbag g)).and (Leads.at_after _ g)).mono (fun _ t h hg => ?_) fun t h hg => ?_
  all_goals exact hg.congr h.1.1 (h.1.2 hg.bag) (labels h.2 hg)

theorem exit (h : g.Tidy fits fine loads) {s : NextScene} (hs : s ∈ g.tables.nextScenes) : fits (.scene s.name) :=
  h.labels _ (List.mem_append_right _ (List.mem_append_right _ (List.mem_map_of_mem hs)))

section

variable (law : LabelLaw fits fine)
include law

theorem object (h : g.Tidy fits fine loads) {name : String} (hname : g.HasObject name) : fits (.object name) := by
  obtain ⟨i, rfl⟩ := hname
  unfold Game.object SceneTables.object
  cases hi : g.tables.objects[i]? with
  | none => exact law.unnamed.1
  | some o =>
    exact h.labels _ (List.mem_append_right _ (SceneTables.mem_labels (Vector.mem_of_getElem? hi) List.mem_cons_self))

/-- However the bag is changed. -/
theorem change (h : g.Tidy fits fine loads) {b : Bag} (hb : g.bag.Change g.HasObject b) :
    ({ g with bag := b } : Game).Tidy fits fine loads := by
  refine h.congr rfl (law.change hb h.bag) fun n hn => ?_
  obtain hn | hn := List.mem_append.mp hn
  · obtain ⟨e, he, rfl⟩ := List.mem_map.mp hn
    obtain hold | hobject := hb.named he
    · exact h.labels _ (List.mem_append_left _ (List.mem_map_of_mem hold))
    · exact law.taken (h.object law hobject)
  · exact h.labels n (List.mem_append_right _ hn)

/-- A game is saved. -/
theorem save (h : g.Tidy fits fine loads) {slot : Nat} {d : ByteArray} {saves : SaveFolder} (hd : g.snapshot.write = .ok d)
    (hsaves : g.saves.writeSlot? slot d = some saves) : ({ g with saves } : Game).Tidy fits fine loads := by
  refine { h with slots := fun slot' d' hslot => ?_ }
  obtain rfl | hold := SaveFolder.readSlot?_writeSlot hsaves hslot
  · exact law.saved h.bag h.labels h.sceneFile hd
  · exact h.slots slot' d' hold

end

/-- A saved game is put in place. -/
theorem restore (h : g.Tidy fits fine loads) {slot : Nat} {d : ByteArray} {s : SaveState} (hslot : g.saves.readSlot? slot = some d)
    (hs : SaveState.read d true = .ok s) : (restore s g).Tidy fits fine loads := by
  have hstored := h.slots slot d hslot
  refine h.congr ?_ (hstored.bag s hs) fun n hn => ((adds_restore s g) n hn).elim (h.labels n) (hstored.labels s hs n)
  simp only [beside, keeping, Game.restore]

end Tidy

namespace LabelLaw

variable (law : LabelLaw fits fine)
include law

theorem tidy_restarted (hbrings : ∀ load n, loads load → g.data.Brings load n → fits n)
    (hfirst : fits (.scene g.firstScene)) (hrequested : ∀ s ∈ g.requested, fits (.scene s.name))
    (hslots : ∀ slot d, g.saves.readSlot? slot = some d → Stored fits fine d) : (restarted g).Tidy fits fine loads where
  brings := hbrings
  bag := law.empty 585 23
  labels := SceneTables.fits_labels_empty law.unnamed.1 law.unnamed.2.1
  firstScene := hfirst
  sceneFile := law.unnamed.2.2
  nextFile := hfirst
  requested := hrequested
  slots := hslots

theorem tidy_readScene {name : String} (hload : loads (Game.readScene name)) : Maintains (Tidy fits fine loads) (Game.readScene name) :=
  Tidy.load hload (unloaded_beside.readScene (fun _ => rfl) name) (law.readScene name)

/-- Whatever a game is asked to do, tidy it stays, also when it fails. -/
theorem tidy_acts (hmovie : ∀ name, loads (loadMovie name)) (hscene : ∀ name, Text.endsWithName name "SCN" → loads (Game.readScene name)) :
    GameActs (fun g g' => g.Tidy fits fine loads → g'.Tidy fits fine loads) fun g g' =>
      g.Tidy fits fine loads → g'.Tidy fits fine loads where
  chains := Chains.maintains _
  moves hg h := h.of_core (Prod.ext_iff.mp hg).2
  shows _ _ h := h.of_keeping rfl (.refl _)
  bag hb h := h.change law hb
  asks hs h := { h with requested := fun _ ht => Option.mem_some.mp ht ▸ h.exit hs }
  forgets _ h := { h with requested := fun _ ht => nomatch ht }
  keepsBoxes keep g h := h.of_keeping rfl (adds_tables (SceneTables.adds_of_same
    (SceneTables.same_foldl SceneTables.titles _ g.tables fun _ _ => by cases keep <;> rfl)
    (SceneTables.same_foldl SceneTables.nextScenes _ g.tables fun _ _ => by cases keep <;> rfl)))
  follows hs h := { h with nextFile := h.requested _ hs }
  finishes _ h := { h with nextFile := law.scene _ List.mem_cons_self }
  dropBehind anim g := ((unstocked_keeping.dropBehind anim g).and (adding_dropBehind anim g)).mono
    (fun _ _ h ht => ht.of_keeping h.1 h.2) fun _ h ht => ht.of_keeping h.1 h.2
  core hg h := h.of_core hg
  enters _ h := { h with sceneFile := h.nextFile }
  readScene name hname := law.tidy_readScene (hscene name hname)
  loadMovie name := Tidy.load (hmovie name) (unloaded_beside.unstocked.loadMovie name) ((unstocked_bag.loadMovie name).maintains fine)
  asksSaved hslot hd h := { h with nextFile := (h.slots _ _ hslot).scene _ hd }
  restores hslot hs h := h.restore hslot hs
  saveSlot slot g := by
    refine (saveSlot_leads slot g).mono (fun _ g' hg h => ?_) fun g' hg h => hg ▸ h
    obtain ⟨d, saves, hd, hsaves, rfl⟩ := hg
    exact h.save law hd hsaves
  restarts _ h := law.tidy_restarted h.brings h.firstScene h.requested h.slots
  mode _ _ _ h := h.of_keeping rfl (.refl _)
  ends _ h := h.of_keeping rfl (.refl _)

end LabelLaw

theorem tidy_beginDialogue : Maintains (Tidy fits fine loads) beginDialogue := fun g => by
  have core {g g' : Game} (h : g'.still = g.still) : g'.core = g.core :=
    congrArg (fun s : (Ground × Core) × SceneTables × Vars => s.1.2) h
  refine (beginDialogue_leads g).mono (fun _ g' hg h => ?_) fun g' hg h => h.of_core (core hg)
  obtain ⟨c, hg⟩ := hg
  have htalks : ({ g with mode := .dialogue, conversation := some c } : Game).Tidy fits fine loads := h.of_keeping rfl (.refl _)
  exact htalks.of_core (core hg)

/-! ### Games that are played -/

/-- What a call can load: movies, descriptions of scenes, and the description that it names. -/
inductive Call.Loads (c : Call) : M Unit → Prop
  | movie (name : String) : Loads c (loadMovie name)
  | scene {name : String} (h : Text.endsWithName name "SCN") : Loads c (readScene name)
  | named {name : String} (h : c = .loadScene name) : Loads c (readScene name)

/-- What calls load brings labels that fit, if those of the movies do and if the words do wherever a file is taken for a
description. -/
theorem Call.Loads.fits_of_brings {W : String → Prop} (hW : Label.FromWords W fits) {d : DataDir} (hmovies : d.MoviesFit fits)
    (hwords : ∀ f ∈ d.files, Description.Wording W (Text.latin1 (Text.stripComments f.content.toList))) {c : Call}
    {load : M Unit} (hload : c.Loads load) {n : Label} (h : d.Brings load n) : fits n := by
  have htext (name : String) (b : ByteArray) (hb : d.read name = .ok b) :
      Description.Wording W (Text.latin1 (Text.stripComments b.toList)) := by
    obtain ⟨f, hf, rfl⟩ := DataDir.exists_file hb
    exact hwords f hf
  cases hload with
  | movie name => exact hmovies.fits_of_brings h
  | scene _ | named _ => exact h.fits_of_leads (readScene_adds hW hmovies (htext _))

/-- The games that come of starting one and asking it to do things, whether they succeed or fail. Files, the stage
with its input, the seed and variables can be changed in between. The saved games that can be asked for are found in the
folders of games that were played, and only labels that fit are brought by what the calls load, or given to a scene. -/
inductive Played (fits : Label → Prop) : Game → Prop
  | start {settings : Settings} {data : DataDir} {saves : SaveFolder} {stage : Stage} {seed : UInt16} {g : Game}
    (h : Game.start settings data saves stage seed = .ok g) (writer : Nat → ByteArray → Game)
    (hplayed : ∀ slot d, saves.Loadable slot d → Played fits (writer slot d))
    (hsaved : ∀ slot d, saves.Loadable slot d → ∃ slot', (writer slot d).saves.readSlot? slot' = some d) : Played fits g
  | call {g : Game} (hg : Played fits g) {c : Call} (hname : ∀ name, c = .loadScene name → fits (.scene name))
    (hbrings : ∀ load n, c.Loads load → g.data.Brings load n → fits n) : Played fits (after c.perform g)
  | outside {g : Game} (hg : Played fits g) (data : DataDir) (saves : SaveFolder) (stage : Stage) (random : Random) (vars : Vars)
    (writer : Nat → ByteArray → Game) (hplayed : ∀ slot d, saves.Loadable slot d → Played fits (writer slot d))
    (hsaved : ∀ slot d, saves.Loadable slot d → ∃ slot', (writer slot d).saves.readSlot? slot' = some d) :
    Played fits { g with data, saves, stage, random, vars }

theorem Played.reachable (hg : Played fits g) : Reachable g := by
  induction hg with
  | start h => exact .start h
  | call _ _ _ ih => exact ih.call _
  | outside _ data saves stage random vars _ _ _ ih => exact ih.outside _ _ _ _ _

/-- Saved games from the folders of tidy games. -/
theorem stored_slots {saves : SaveFolder} {writer : Nat → ByteArray → Game}
    (htidy : ∀ slot d, saves.Loadable slot d → (writer slot d).Tidy fits fine loads)
    (hsaved : ∀ slot d, saves.Loadable slot d → ∃ slot', (writer slot d).saves.readSlot? slot' = some d) (slot : Nat)
    (d : ByteArray) (hslot : saves.readSlot? slot = some d) : Stored fits fine d := by
  have stored (hheader : ∃ h, SaveState.readHeader d = .ok h) : Stored fits fine d := by
    obtain ⟨slot', hslot'⟩ := hsaved slot d ⟨hslot, hheader⟩
    exact (htidy slot d ⟨hslot, hheader⟩).slots slot' d hslot'
  exact ⟨fun h hd => (stored ⟨h, hd⟩).scene h hd, fun s hs => (stored (SaveState.readHeader_of_read hs)).bag s hs,
    fun s hs => (stored (SaveState.readHeader_of_read hs)).labels s hs⟩

theorem Played.tidy (law : LabelLaw fits fine) (hg : Played fits g) : g.Tidy fits fine fun _ => False := by
  induction hg with
  | start h _ _ hsaved ih =>
    obtain ⟨scene, hscene, ui, rfl⟩ := eq_begun h
    exact law.tidy_restarted (fun _ _ h => h.elim) (law.scene scene (List.mem_cons_of_mem _ hscene)) (fun _ h => nomatch h)
      (stored_slots ih hsaved)
  | @call g _ c hname hbrings ih =>
    have hacts : GameActs (fun g g' => g.Tidy fits fine c.Loads → g'.Tidy fits fine c.Loads) _ :=
      law.tidy_acts .movie fun _ => .scene
    have hcall := hacts.perform tidy_beginDialogue (c := c) (fun name h g hg => { hg with sceneFile := hname name h })
      fun name h => law.tidy_readScene (.named h)
    have hg := ih.mono hbrings
    exact (((hcall g).mono (fun _ _ h => h hg) fun _ h => h hg).after).mono fun _ _ h => h.elim
  | outside _ _ _ _ _ _ _ _ hsaved ih ihw =>
    exact ⟨fun _ _ h => h.elim, ih.bag, ih.labels, ih.firstScene, ih.sceneFile, ih.nextFile, ih.requested, stored_slots ihw hsaved⟩

/-- A demo in whose folder nothing is saved is given these files. -/
theorem played_demo (data : DataDir) : Played fits { demoGame demoFiles "-01.SCN" with data } := by
  have hstart : Played fits (demoGame demoFiles "-01.SCN") :=
    .start (startDemo_eq (by decide : firstScenes.find? demoFiles.contains = some "-01.SCN") rfl rfl) (fun _ _ => default)
      (fun _ _ h => (SaveFolder.not_loadable_empty h).elim) fun _ _ h => (SaveFolder.not_loadable_empty h).elim
  exact hstart.outside data ⟨".", some []⟩ _ _ _ (fun _ _ => default) (fun _ _ h => (SaveFolder.not_loadable_empty h).elim)
    fun _ _ h => (SaveFolder.not_loadable_empty h).elim

end Game

end Adventure
