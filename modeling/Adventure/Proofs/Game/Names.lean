import Adventure.Proofs.Game.Bounds
import Adventure.Proofs.Game.Restoring
import Adventure.Proofs.Scene.Naming

/-! What names there are in a game, and where they come from. Movies bring those of objects and of their classes, and
a text of a movie is cut at its first zero; descriptions of scenes bring those of classes, of entries of the bag and of
scenes that can follow, as they stand there; and a saved game brings those that it was saved with. -/

namespace Adventure

/-- A name, with what it is the name of. -/
inductive Label where
  | entry (name : String)
  | object (name : String)
  | objectClass (name : String)
  | scene (name : String)

/-- What holds of the labels that are new in the second list. -/
def Adds (fits : Label → Prop) (l l' : List Label) : Prop := ∀ n ∈ l', n ∈ l ∨ fits n

namespace Adds

variable {fits : Label → Prop} {k k' l l' l'' : List Label}

theorem subset (h : l' ⊆ l) : Adds fits l l' := fun _ hn => Or.inl (h hn)

theorem refl (l : List Label) : Adds fits l l := subset fun _ h => h

theorem trans (h : Adds fits l l') (h' : Adds fits l' l'') : Adds fits l l'' := fun n hn => (h' n hn).elim (h n) Or.inr

theorem append (h : Adds fits k k') (h' : Adds fits l l') : Adds fits (k ++ l) (k' ++ l') := fun n hn => by
  obtain hn | hn := List.mem_append.mp hn
  · exact (h n hn).imp_left (List.mem_append_left l)
  · exact (h' n hn).imp_left (List.mem_append_right k)

theorem single {n : Label} (hn : fits n) : Adds fits l [n] := fun _ hm => Or.inr (List.mem_singleton.mp hm ▸ hn)

/-- One label is put behind the others. -/
theorem concat {n : Label} (hn : fits n) : Adds fits l (l ++ [n]) := fun m hm => (List.mem_append.mp hm).elim Or.inl (single hn m)

theorem all (h : Adds fits l l') (hl : ∀ n ∈ l, fits n) : ∀ n ∈ l', fits n := fun n hn => (h n hn).elim (hl n) id

end Adds

/-- The labels that an object bears. -/
def Label.ofTitle (title : String × String) : List Label := [.object title.1, .objectClass title.2]

theorem Label.fits_ofTitle {fits : Label → Prop} {title : String × String} :
    (∀ n ∈ ofTitle title, fits n) ↔ fits (.object title.1) ∧ fits (.objectClass title.2) := by
  simp [ofTitle]

/-! ### Movies -/

namespace Movie

/-- The labels of the objects of a movie. -/
def labels (m : Movie) : List Label := m.objects.flatMap fun o => Label.ofTitle (o.name, o.className)

open Yields

theorem yields_record (o : MovieObject) (ho : Text.NoZero o.name) :
    Yields (readRecord o) fun r => r.elim (fun o => Text.NoZero o.name) fun o => Text.NoZero o.name := by
  refine .skip fun kind => ?_
  split
  · exact .value ho
  · exact .skip fun _ => .value ho
  · exact .skip fun _ => .ite (.skip fun _ => .value ho) (.value ho)
  · exact .skip fun _ => .skip fun _ => .value ho
  iterate 4 exact .skip fun _ => .value ho
  · exact .skip fun _ => .ite (.skip fun _ => .skip fun _ => .value ho) (.skip fun _ => .value ho)
  · exact .fault _

theorem yields_object : Yields readObject fun o => Text.NoZero o.name := string16.bind fun _ h => .loop yields_record h

theorem yields_section (m : Movie) (hm : ∀ o ∈ m.objects, Text.NoZero o.name) :
    Yields (readSection m) fun r =>
      r.elim (fun m => ∀ o ∈ m.objects, Text.NoZero o.name) fun m => ∀ o ∈ m.objects, Text.NoZero o.name := by
  refine .skip fun kind => ?_
  split
  · exact .skip fun _ => .value hm
  · exact .skip fun _ => .value hm
  · refine yields_object.bind fun o ho => .ite (.skip fun _ => ?_) ?_
    all_goals
      refine .value fun p hp => ?_
      obtain hp | hp := List.mem_append.mp hp
      · exact hm p hp
      · exact List.mem_singleton.mp hp ▸ ho
  · exact .skip fun _ => .skip fun _ => .value hm
  · exact .skip fun _ => .value hm
  · exact .fault _

/-- No name of an object of a movie has a zero. -/
theorem noZero_decode {data : ByteArray} {m : Movie} (h : decode data = .ok m) : ∀ o ∈ m.objects, Text.NoZero o.name := by
  have hread : Yields read fun m => ∀ o ∈ m.objects, Text.NoZero o.name := by
    refine .skip fun _ => .ite (.skip fun _ => ?_) ?_
    all_goals exact .skip fun _ => .skip fun _ => .skip fun _ => .loop yields_section fun _ h => nomatch h
  exact hread.run h

end Movie

/-! ### Tables -/

/-- The labels of the bag and of the objects of a saved game. -/
def SaveState.labels (s : SaveState) : List Label :=
  s.bag.map (fun e => .entry e.name) ++ s.objects.flatMap fun o => Label.ofTitle o.title

namespace SceneTables

/-- The labels of objects and of the scenes that can follow. -/
def labels (t : SceneTables) : List Label :=
  t.titles.toList.flatMap Label.ofTitle ++ t.nextScenes.map fun s => .scene s.name

variable {fits : Label → Prop} {t u : SceneTables}

theorem mem_labels {o : SceneObject} (ho : o ∈ t.objects) {n : Label} (hn : n ∈ Label.ofTitle o.title) : n ∈ t.labels :=
  List.mem_append_left _ (List.mem_flatMap.mpr ⟨_, Vector.mem_toList_iff.mpr (Vector.mem_map.mpr ⟨o, ho, rfl⟩), hn⟩)

theorem fits_labels_empty (hobject : fits (.object "")) (hclass : fits (.objectClass "")) :
    ∀ n ∈ ({} : SceneTables).labels, fits n := by
  intro n hn
  obtain hn | hn := List.mem_append.mp hn
  · obtain ⟨title, htitle, hn⟩ := List.mem_flatMap.mp hn
    obtain ⟨o, ho, rfl⟩ := Vector.mem_map.mp (Vector.mem_toList_iff.mp htitle)
    rw [Vector.eq_of_mem_replicate ho] at hn
    exact Label.fits_ofTitle.mpr ⟨hobject, hclass⟩ n hn
  · cases hn

theorem adds_of_same (htitles : u.titles = t.titles) (hexits : u.nextScenes = t.nextScenes) : Adds fits t.labels u.labels := by
  rw [labels, labels, htitles, hexits]
  exact .refl _

/-- Some of the scenes that could follow no longer can. -/
theorem adds_of_fewer (htitles : u.titles = t.titles) (hexits : u.nextScenes = []) : Adds fits t.labels u.labels := by
  rw [labels, labels, htitles, hexits, List.map_nil, List.append_nil]
  exact .subset (List.subset_append_left _ _)

theorem chains_adds : Chains (fun t u : SceneTables => Adds fits t.labels u.labels) fun t u => Adds fits t.labels u.labels :=
  Chains.ofOrder (fun _ => .refl _) .trans

/-- The titles of the objects, one of them taken anew. -/
theorem mem_titles_modifyObject {i : Nat} {f : SceneObject → SceneObject} {title : String × String}
    (h : title ∈ (t.modifyObject i f).titles) :
    title ∈ t.titles ∨ (t.object i).title ∈ t.titles ∧ title = (f (t.object i)).title := by
  rw [Vector.mem_iff_getElem] at h
  obtain ⟨j, hj, rfl⟩ := h
  have hold : (t.object j).title ∈ t.titles := by
    rw [object_eq_getElem t hj]
    exact Vector.mem_map.mpr ⟨_, Vector.getElem_mem hj, rfl⟩
  simp only [titles, Vector.getElem_map, getElem_modifyObject t i f hj]
  split
  · rename_i hij
    rw [hij]
    exact Or.inr ⟨hold, rfl⟩
  · exact Or.inl hold

/-- The new labels of one object are all that is new. -/
theorem adds_modifyObject {i : Nat} {f : SceneObject → SceneObject}
    (hf : Adds fits (Label.ofTitle (t.object i).title) (Label.ofTitle (f (t.object i)).title)) :
    Adds fits t.labels (t.modifyObject i f).labels := by
  have old {n : Label} {title : String × String} (htitle : title ∈ t.titles) (hn : n ∈ Label.ofTitle title) :
      n ∈ t.titles.toList.flatMap Label.ofTitle := List.mem_flatMap.mpr ⟨title, Vector.mem_toList_iff.mpr htitle, hn⟩
  refine Adds.append (fun n hn => ?_) (.refl _)
  obtain ⟨title, htitle, hn⟩ := List.mem_flatMap.mp hn
  obtain hold | ⟨hold, rfl⟩ := mem_titles_modifyObject (Vector.mem_toList_iff.mp htitle)
  · exact Or.inl (old hold hn)
  · exact (hf n hn).imp_left (old hold)

theorem titles_resetUnused (t : SceneTables) : t.resetUnused.titles = t.titles :=
  same_foldl titles _ t fun _ _ => titles_modifyObject rfl

theorem titles_clearBoxes (t : SceneTables) : t.clearBoxes.titles = t.titles := same_foldl titles _ t fun _ _ => rfl

theorem nextScenes_resetUnused (t : SceneTables) : t.resetUnused.nextScenes = t.nextScenes :=
  same_foldl nextScenes _ t fun _ _ => rfl

theorem nextScenes_clearBoxes (t : SceneTables) : t.clearBoxes.nextScenes = t.nextScenes := same_foldl nextScenes _ t fun _ _ => rfl

theorem adds_dropAll (t : SceneTables) : Adds fits t.labels t.dropAll.labels := by
  refine adds_of_fewer ?_ ?_
  · exact (titles_clearBoxes _).trans (titles_resetUnused _)
  · exact (nextScenes_clearBoxes _).trans (nextScenes_resetUnused _)

theorem adds_keepUpTo (t : SceneTables) (anim : Fin t.animations.size) : Adds fits t.labels (t.keepUpTo anim).labels := by
  refine adds_of_fewer ?_ ?_
  · exact (titles_clearBoxes _).trans (titles_resetUnused _)
  · exact (nextScenes_clearBoxes _).trans (nextScenes_resetUnused _)

theorem adds_dropBehind {anim : Int} (h : t.dropBehind anim = .ok u) : Adds fits t.labels u.labels := by
  unfold SceneTables.dropBehind at h
  by_cases hall : anim = -1
  · rw [if_pos hall] at h
    exact Except.ok.inj h ▸ adds_dropAll t
  · rw [if_neg hall] at h
    obtain ⟨i, -, h⟩ := except_bind_eq_ok.mp h
    exact Except.ok.inj h ▸ adds_keepUpTo t i

/-- Objects of a saved game take the place of others. -/
theorem adds_restoreTables (t : SceneTables) (s : SaveState) :
    Adds (· ∈ s.labels) t.labels (Game.restoreTables s t).labels := by
  have hexits : (Game.restoreTables s t).nextScenes = t.nextScenes := by simp only [Game.restoreTables]
  have hobjects : (Game.restoreTables s t).objects = Game.overwrite t.objects s.objects := by simp only [Game.restoreTables]
  rw [labels, labels, hexits, titles, titles, hobjects]
  refine Adds.append (fun n hn => ?_) (.refl _)
  obtain ⟨title, htitle, hn⟩ := List.mem_flatMap.mp hn
  rw [Vector.mem_toList_iff, Vector.mem_iff_getElem] at htitle
  obtain ⟨i, hi, rfl⟩ := htitle
  rw [Vector.getElem_map, Game.getElem_overwrite] at hn
  cases hsaved : s.objects[i]? with
  | some o =>
    rw [hsaved, Option.getD_some] at hn
    exact Or.inr (List.mem_append_right _ (List.mem_flatMap.mpr ⟨o, List.mem_of_getElem? hsaved, hn⟩))
  | none =>
    rw [hsaved, Option.getD_none] at hn
    refine Or.inl (List.mem_flatMap.mpr ⟨_, Vector.mem_toList_iff.mpr (Vector.mem_iff_getElem.mpr ⟨i, hi, ?_⟩), hn⟩)
    exact Vector.getElem_map _ _

/-- A step of the tables that brings labels that fit alone. -/
abbrev Adding (fits : Label → Prop) {α : Type} (m : M α) : Prop :=
  Within (fun t u => Adds fits t.labels u.labels) (fun t u => Adds fits t.labels u.labels) m

theorem adding_addSounds (names : List String) : Adding fits (addSounds names) := fun _ =>
  Leads.look (Leads.ite (fun _ => .refl _) fun _ => adds_of_same rfl rfl)

theorem adding_addBox (b : MovieBox) : Adding fits (addBox b) := fun _ =>
  Leads.ite (fun _ => .refl _) fun _ => Leads.look (Leads.ite (fun _ => .refl _) fun _ => adds_of_same rfl rfl)

theorem adding_addBoxes (l : List MovieBox) : Adding fits (addBoxes l) := by
  induction l with
  | nil => exact chains_adds.value _
  | cons b l ih => exact chains_adds.bind (adding_addBox b) fun _ => ih

theorem adding_addObject (motionInit : Int16) {o : MovieObject} (ho : ∀ n ∈ Label.ofTitle (o.name, o.className), fits n) :
    Adding fits (addObject motionInit o) := fun _ =>
  Leads.look (Leads.ite (fun _ => .refl _) fun _ => Leads.ite (fun _ => .refl _) fun _ =>
    adds_modifyObject fun n hn => Or.inr (ho n hn))

theorem adding_addObjects (motionInit : Int16) {l : List MovieObject}
    (hl : ∀ n ∈ l.flatMap fun o => Label.ofTitle (o.name, o.className), fits n) : Adding fits (addObjects motionInit l) := by
  induction l with
  | nil => exact chains_adds.value _
  | cons o l ih =>
    rw [List.flatMap_cons] at hl
    exact chains_adds.bind (adding_addObject motionInit fun n hn => hl n (List.mem_append_left _ hn)) fun _ =>
      ih fun n hn => hl n (List.mem_append_right _ hn)

theorem adding_addBank (anim : Nat) (bank : SpriteBank) : Adding fits (addBank anim bank) := by
  refine fun t => Leads.look (Leads.ite (fun _ => .refl _) fun _ => Leads.ite (fun _ => .refl _) fun _ => ?_)
  exact adds_of_same (same_foldl titles _ t fun _ _ => rfl) (same_foldl nextScenes _ t fun _ _ => rfl)

theorem adds_startMovies (t : SceneTables) : Adds fits t.labels t.startMovies.labels := by
  refine adds_of_same ?_ rfl
  simp only [titles, startMovies, Vector.map_map]
  rfl

end SceneTables

/-! ### Games -/

namespace Game

/-- The labels of the entries of the bag, of the objects and of the scenes that can follow. -/
def labels (g : Game) : List Label := g.bag.entries.map (fun e => .entry e.name) ++ g.tables.labels

variable {fits : Label → Prop} {g g' : Game}

theorem labels_of_core (h : g'.core = g.core) : g'.labels = g.labels := by
  have hbag : g'.bag = g.bag := congrArg Core.bag h
  have htitles : g'.tables.titles = g.tables.titles := congrArg Core.titles h
  have hexits : g'.tables.nextScenes = g.tables.nextScenes := congrArg Core.nextScenes h
  rw [labels, labels, SceneTables.labels, SceneTables.labels, hbag, htitles, hexits]

theorem adds_of_core (h : g'.core = g.core) : Adds fits g.labels g'.labels := labels_of_core h ▸ .refl _

theorem adds_tables {t : SceneTables} (h : Adds fits g.tables.labels t.labels) :
    Adds fits g.labels ({ g with tables := t } : Game).labels := .append (.refl _) h

/-- The labels after a saved game has been put in place are its own, and those of the other objects. -/
theorem adds_restore (s : SaveState) (g : Game) : Adds (· ∈ s.labels) g.labels (restore s g).labels := by
  intro n hn
  simp only [labels, restore] at hn
  obtain hn | hn := List.mem_append.mp hn
  · exact Or.inr (List.mem_append_left _ hn)
  · exact (g.tables.adds_restoreTables s n hn).imp_left (List.mem_append_right _)

/-- A step that brings labels that fit alone. -/
abbrev Adding (fits : Label → Prop) {α : Type} (m : M α) : Prop :=
  Within (fun g g' => Adds fits g.labels g'.labels) (fun g g' => Adds fits g.labels g'.labels) m

theorem chains_adds : Chains (fun g g' : Game => Adds fits g.labels g'.labels) fun g g' => Adds fits g.labels g'.labels :=
  Chains.ofOrder (fun _ => .refl _) .trans

theorem adding_withTables {α : Type} {m : SceneTables.M α} (hm : SceneTables.Adding fits m) : Adding fits (withTables m) := by
  refine fun g => (withTables_leads (hm g.tables)).mono (fun _ g' h => ?_) fun g' h => ?_
  all_goals
    obtain ⟨t, ht, rfl⟩ := h
    exact adds_tables ht

theorem adding_readResource {α : Type} (decode : ByteArray → Except ResourceError α) (name : String) :
    Adding fits (readResource decode name) := fun g =>
  (readResource_leads decode name g).mono (fun _ _ h => h.1 ▸ .refl _) fun _ h => h ▸ .refl _

theorem adding_loadBackground (name : String) : Adding fits (loadBackground name) :=
  chains_adds.bind (adding_readResource _ _) fun _ _ => adds_tables (SceneTables.adds_of_same rfl rfl)

theorem adding_beginMovies (background : String) : Adding fits (beginMovies background) :=
  have hC := chains_adds
  hC.look fun _ => .ite (hC.bind (adding_loadBackground _) fun _ g => adds_tables g.tables.adds_startMovies) (hC.value _)

theorem adding_putMovie (name : String) {movie : Movie} (h : ∀ n ∈ movie.labels, fits n) : Adding fits (putMovie name movie) := by
  have hC : Chains (fun g g' : Game => Adds fits g.labels g'.labels) fun g g' => Adds fits g.labels g'.labels := chains_adds
  have parts (m : Int16) : SceneTables.Adding fits (do
      SceneTables.addSounds movie.sounds; SceneTables.addBoxes movie.boxes; SceneTables.addObjects m movie.objects) :=
    have hT := SceneTables.chains_adds
    hT.bind (SceneTables.adding_addSounds _) fun _ => hT.bind (SceneTables.adding_addBoxes _) fun _ =>
      SceneTables.adding_addObjects m h
  exact hC.look fun g => hC.bind (adding_withTables (parts _)) fun _ => hC.bind (adding_readResource _ _) fun bank =>
    hC.bind (adding_withTables (SceneTables.adding_addBank _ _)) fun _ _ => adds_tables (SceneTables.adds_of_same rfl rfl)

/-- A movie brings the labels of its objects. -/
theorem loadMovie_adds {name : String} (h : ∀ movie, resource g.data Movie.decode name = .ok movie → ∀ n ∈ movie.labels, fits n) :
    Leads (loadMovie name) g (fun _ g' => Adds fits g.labels g'.labels) fun g' => Adds fits g.labels g'.labels := by
  have hC : Chains (fun g g' : Game => Adds fits g.labels g'.labels) fun g g' => Adds fits g.labels g'.labels := chains_adds
  refine Leads.bind ((readResource_leads _ name g).mono (fun movie g' hread => ?_) fun g' hread => hread ▸ .refl _)
  obtain ⟨rfl, hmovie⟩ := hread
  have put : Adding fits (do beginMovies movie.backgroundName; putMovie name movie) :=
    hC.bind (adding_beginMovies _) fun _ => adding_putMovie name (h movie hmovie)
  exact (hC.look fun _ => .ite (hC.bind (hC.fault _) fun _ => put) put : Adding fits _) g'

theorem adding_dropBehind (anim : Int) : Adding fits (dropBehind anim) := by
  refine fun g => Leads.look (Leads.bind ((Leads.lift _ g).mono (fun t g' h => ?_) fun _ h => h ▸ .refl _))
  obtain ⟨rfl, ht⟩ := h
  exact adds_tables (SceneTables.adds_dropBehind ht)

theorem adding_loadScreen (name : String) : Adding fits (loadScreen name) :=
  have hC := chains_adds
  hC.bind (fun _ => adds_tables (SceneTables.adds_of_same (SceneTables.titles_clearBoxes _) (SceneTables.nextScenes_clearBoxes _)))
    fun _ => hC.bind (adding_loadBackground _) fun _ _ => adds_tables (SceneTables.adds_of_same rfl rfl)

theorem adding_addBagEntry {name : String} (hname : fits (.entry name)) (file : String) : Adding fits (addBagEntry name file) := by
  refine fun g => Leads.look (Leads.ite (fun _ => .refl _) fun _ => ?_)
  refine Leads.bind (Leads.look ((Leads.lift _ g).mono (fun data g' h => ?_) fun _ h => h ▸ .refl _))
  obtain ⟨rfl, -⟩ := h
  refine Adds.append ?_ (.refl _)
  rw [List.map_append]
  exact .concat hname

theorem adding_addNextScene {s : NextScene} (hs : fits (.scene s.name)) : Adding fits (addNextScene s) := by
  refine fun g => Leads.look (Leads.ite (fun _ => .refl _) fun _ => adds_tables (Adds.append (.refl _) ?_))
  rw [List.map_append]
  exact .concat hs

end Game

/-! ### Files -/

namespace DataDir

/-- Loading brings the label into some game with these files. -/
def Brings (d : DataDir) (load : Game.M Unit) (n : Label) : Prop := ∃ g : Game, g.data = d ∧ n ∉ g.labels ∧ n ∈ (after load g).labels

/-- The labels of all movies in these files fit. -/
def MoviesFit (fits : Label → Prop) (d : DataDir) : Prop :=
  ∀ name movie, Game.resource d Movie.decode name = .ok movie → ∀ n ∈ movie.labels, fits n

variable {fits : Label → Prop} {d : DataDir} {load : Game.M Unit} {n : Label}

theorem Brings.fits_of_leads (h : d.Brings load n)
    (hload : ∀ g : Game, g.data = d → Leads load g (fun _ g' => Adds fits g.labels g'.labels) fun g' => Adds fits g.labels g'.labels) :
    fits n := by
  obtain ⟨g, hg, hnew, hn⟩ := h
  exact ((hload g hg).after n hn).resolve_left hnew

/-- What is read stands in one of the files. -/
theorem exists_file {name : String} {b : ByteArray} (h : d.read name = .ok b) : ∃ f ∈ d.files, f.content = b := by
  rw [DataDir.read] at h
  split at h
  · rename_i content hread
    cases h
    obtain ⟨f, hf, rfl⟩ := Option.map_eq_some_iff.mp hread
    exact ⟨f, List.mem_of_find?_eq_some hf, rfl⟩
  · cases h

theorem MoviesFit.of_files (h : ∀ f ∈ d.files, ∀ movie, Movie.decode f.content = .ok movie → ∀ n ∈ movie.labels, fits n) :
    d.MoviesFit fits := by
  intro name movie hmovie
  obtain ⟨b, hb, hmovie⟩ := except_bind_eq_ok.mp hmovie
  obtain ⟨f, hf, rfl⟩ := exists_file (Game.ok_of_wrap hb)
  exact h f hf movie (Game.ok_of_wrap hmovie)

theorem MoviesFit.fits_of_brings (hd : d.MoviesFit fits) {name : String} (h : d.Brings (Game.loadMovie name) n) : fits n :=
  h.fits_of_leads fun _ hg => Game.loadMovie_adds (hg ▸ hd name)

end DataDir

/-- What the words of a description have to be for its labels to fit. -/
structure Label.FromWords (W : String → Prop) (fits : Label → Prop) : Prop where
  missing : W ""
  entry : ∀ name, W name → fits (.entry name)
  objectClass : ∀ name, W name → fits (.objectClass name)
  scene : ∀ name, W name → fits (.scene (Description.upper name))

namespace Game

variable {W : String → Prop} {fits : Label → Prop} {d : DataDir}

theorem unloaded_data : Unloaded Game.data := fun _ _ _ _ _ _ _ _ _ => rfl

/-- With the files `d`, the files stay and labels that fit are brought alone. -/
def AddsOn (d : DataDir) (fits : Label → Prop) (g g' : Game) : Prop := g.data = d → g'.data = d ∧ Adds fits g.labels g'.labels

theorem addsOn {α : Type} {m : M α} (hdata : Leaves Game.data m)
    (hm : ∀ g : Game, g.data = d → Leads m g (fun _ g' => Adds fits g.labels g'.labels) fun g' => Adds fits g.labels g'.labels) :
    Within (AddsOn d fits) (AddsOn d fits) m := fun g => by
  by_cases hg : g.data = d
  · exact ((hdata g).and (hm g hg)).mono (fun _ _ h _ => ⟨h.1.trans hg, h.2⟩) fun _ h _ => ⟨h.1.trans hg, h.2⟩
  · exact (hdata g).mono (fun _ _ _ h => absurd h hg) fun _ _ h => absurd h hg

theorem namingActs (hW : Label.FromWords W fits) (hd : d.MoviesFit fits) :
    Description.NamingActs (H := Game) W (AddsOn d fits) (AddsOn d fits) where
  chains := Chains.ofOrder (fun _ hg => ⟨hg, .refl _⟩) fun h h' hg => ⟨(h' (h hg).1).1, (h hg).2.trans (h' (h hg).1).2⟩
  setSceneNumber _ _ hg := ⟨hg, adds_of_core rfl⟩
  dropBehind anim := addsOn (unloaded_data.hostActs.dropBehind anim) fun g _ => adding_dropBehind anim g
  expectMovie _ hg := ⟨hg, adds_tables (SceneTables.adds_of_same rfl rfl)⟩
  loadMovie name := addsOn (unloaded_data.hostActs.loadMovie name) fun _ hg => loadMovie_adds (hg ▸ hd name)
  loadScreen name := addsOn (unloaded_data.hostActs.loadScreen name) fun g _ => adding_loadScreen name g
  setMusic name g hg := ⟨(unloaded_data.hostActs.setMusic name g).trans hg, adds_of_core (core_setMusic name g)⟩
  setTrack _ _ hg := ⟨hg, adds_of_core rfl⟩
  modifyObject _ _ _ hf hg := ⟨hg, adds_tables (SceneTables.adds_of_same (SceneTables.titles_modifyObject (hf _)) rfl)⟩
  setBagPosition _ _ _ hg := ⟨hg, .refl _⟩
  pushBox _ _ _ _ hg := ⟨hg, adds_tables (SceneTables.adds_of_same rfl rfl)⟩
  missing := hW.missing
  setClass _ name _ hname hg :=
    ⟨hg, adds_tables (SceneTables.adds_modifyObject (.append (.refl [_]) (.single (hW.objectClass name hname))))⟩
  addBagEntry name file g hname _ :=
    addsOn (m := addBagEntry name file) (unloaded_data.addBagEntry name file) (fun g _ => adding_addBagEntry (hW.entry name hname) file g) g
  addNextScene n name hname :=
    addsOn (unloaded_data.hostActs.addNextScene ⟨n, _⟩) fun g _ => adding_addNextScene (hW.scene name hname) g

/-- A description brings the labels of its movies, and words of its text. -/
theorem readScene_adds (hW : Label.FromWords W fits) (hd : d.MoviesFit fits) {file : String}
    (hfile : ∀ b, d.read file = .ok b → Description.Wording W (Text.latin1 (Text.stripComments b.toList))) (g : Game)
    (hg : g.data = d) :
    Leads (readScene file) g (fun _ g' => Adds fits g.labels g'.labels) fun g' => Adds fits g.labels g'.labels := by
  refine Leads.bind (Leads.look ((Leads.lift _ g).mono (fun b g' h => ?_) fun _ h => h ▸ .refl _))
  obtain ⟨rfl, hb⟩ := h
  have htext := hfile b (hg ▸ ok_of_wrap hb)
  exact (Description.parse_naming (namingActs hW hd) htext g').mono (fun _ _ h => (h hg).2) fun _ h => (h hg).2

end Game

end Adventure
