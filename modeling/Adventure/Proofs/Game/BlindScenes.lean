import Adventure.Game.Frame
import Adventure.Proofs.Game.Blind
import Adventure.Proofs.Scene.Abreast

/-! Loading scenes and saved games comes to the same in games that are alike: a scene
brings its own pictures, and nothing else of them is looked at. -/

namespace Adventure.Game

variable {K : Marks → Marks → Prop}

namespace Blind

/-! ### Backgrounds and movies -/

theorem loadBackground (name : String) : Blind K (loadBackground name) := by
  refine (readResource _ _).bind fun b => Abreast.modifies fun g g' h => ?_
  have hshows : Shows fun g => { g with palette := b.palette, frame := b.surface, background := b.surface } :=
    fun _ => ⟨rfl, rfl, rfl⟩
  exact Plain.alike (f := fun g => { g with tables := { g.tables with loaded := .background } })
    (fun _ => ⟨rfl, rfl, rfl⟩) (hshows.alike hshows h)

theorem beginMovies (background : String) : Blind K (beginMovies background) :=
  look (fun _ => rfl) fun _ => ite ((loadBackground _).bind fun _ => onTables _) (value _)

theorem putMovie (name : String) (movie : Movie) : Blind K (putMovie name movie) :=
  look (fun _ => rfl) fun _ => (withTables _).bind fun _ => (readResource _ _).bind fun _ => (withTables _).bind fun _ =>
    onTables _

theorem loadMovie (name : String) : Blind K (loadMovie name) := by
  have put (movie : Movie) : Blind K (do Game.beginMovies movie.backgroundName; Game.putMovie name movie) :=
    (beginMovies _).bind fun _ => putMovie _ _
  exact (readResource _ _).bind fun movie => look (fun _ => rfl) fun _ => ite ((fault _).bind fun _ => put movie) (put movie)

theorem loadScreen (name : String) : Blind K (loadScreen name) :=
  (onTables _).bind fun _ => (loadBackground _).bind fun _ => onTables _

/-! ### Descriptions -/

theorem addBagEntry (name file : String) : Blind K (addBagEntry name file) :=
  look (fun _ => rfl) fun _ => ite ((fault _).bind fun _ => (readFile _).bind fun _ => onBag _)
    ((readFile _).bind fun _ => onBag _)

theorem addNextScene (s : NextScene) : Blind K (addNextScene s) :=
  look (fun _ => rfl) fun _ => ite ((fault _).bind fun _ => onTables _) (onTables _)

theorem plain_setMusic (name : Option String) : Plain (setMusic name) := by
  intro g
  cases name with
  | none => exact ⟨rfl, rfl, rfl⟩
  | some name =>
    by_cases hname : name = g.music.name ∨ name.isEmpty
    · have hbare : name = g.bare.music.name ∨ name.isEmpty := hname
      simp only [setMusic, if_pos hname, if_pos hbare]
      exact ⟨rfl, rfl, rfl⟩
    · have hbare : ¬(name = g.bare.music.name ∨ name.isEmpty) := hname
      simp only [setMusic, if_neg hname, if_neg hbare]
      exact ⟨rfl, rfl, rfl⟩

/-- To a description games that are alike look the same. -/
theorem hostsAbreast : Description.HostsAbreast (H := Game) (ε := GameError) (Alike K) where
  start h := Plain.alike (f := fun g => { g with sceneNumber := 0, defaultVars := g.vars }) (fun _ => ⟨rfl, rfl, rfl⟩) h
  var h i := h.same (fun g => g.vars[i]?.getD 0) fun _ => rfl
  sceneNumber h := h.same Game.sceneNumber fun _ => rfl
  setSceneNumber h n := Plain.alike (f := fun g => { g with sceneNumber := n }) (fun _ => ⟨rfl, rfl, rfl⟩) h
  animations h := h.same (fun g => g.tables.animations.toList.map (·.name)) fun _ => rfl
  dropBehind := dropBehind
  expectMovie h := Plain.alike (f := fun g => { g with tables := { g.tables with loaded := .background } })
    (fun _ => ⟨rfl, rfl, rfl⟩) h
  loadMovie := loadMovie
  loadScreen := loadScreen
  setMusic h name := (plain_setMusic name).alike h
  setTrack h n := Plain.alike (f := fun g => { g with music := { g.music with track := n } }) (fun _ => ⟨rfl, rfl, rfl⟩) h
  findObject h name := by simp only [SceneHost.findObject, h.same Game.tables fun _ => rfl]
  modifyObject h i f := Plain.alike (f := fun g => { g with tables := g.tables.modifyObject i f })
    (fun _ => ⟨rfl, rfl, rfl⟩) h
  objectAnimation h i := h.same (·.tables.objectAnimation? i) fun _ => rfl
  status h i := h.same (·.tables.statuses[i]?) fun _ => rfl
  setBagPosition h x y := Plain.alike (f := fun g => { g with bag := { g.bag with x, y } }) (fun _ => ⟨rfl, rfl, rfl⟩) h
  hasBagEntry h name := h.same (fun g => (g.bag.find? name).isSome) fun _ => rfl
  addBagEntry := addBagEntry
  addNextScene := addNextScene
  boxCount h group := h.same (·.tables.boxCount group) fun _ => rfl
  box h group i := h.same (fun g => (g.tables.findBox? group i).getD {}) fun _ => rfl
  pushBox h group b := Plain.alike (f := SceneHost.pushBox group b) (fun _ => ⟨rfl, rfl, rfl⟩) h

theorem readScene (name : String) : Blind K (readScene name) :=
  (readFile _).bind fun _ => Description.abreast_parse hostsAbreast _

/-! ### Saved games -/

theorem plain_takeHeader (h : SaveHeader) :
    Plain fun g => { g with vars := overwrite g.vars h.defaultVars, nextFile := h.sceneName } := fun g => by
  simp only [bare, Game.voices, Game.marks, and_self]

theorem loadHeader (slot : Nat) : Blind K (loadHeader slot) := by
  refine stopMusic.bind fun _ => look (fun _ => rfl) fun g => ?_
  split
  · exact value _
  · exact (lift _).bind fun h => (change (plain_takeHeader h)).bind fun _ => value _

theorem requestSlot (slot : Nat) : Blind K (requestSlot slot) :=
  (loadHeader slot).bind fun _ => ite (change fun _ => ⟨rfl, rfl, rfl⟩) (value _)

theorem plain_restore (s : SaveState) : Plain (restore s) := fun g => by
  simp only [restore, bare, Game.voices, Game.marks, and_self]

theorem restoreSlot (slot : Nat) : Blind K (restoreSlot slot) := by
  refine (loadHeader slot).bind fun data => ?_
  split
  · exact value _
  · exact (lift _).bind fun s => change (plain_restore s)

/-- What is saved does not depend on what may differ. -/
theorem saveSlot (slot : Nat) : Blind K (saveSlot slot) := by
  refine Abreast.look fun g g' h => ?_
  have hsnapshot : g.snapshot = g'.snapshot := h.same Game.snapshot fun _ => rfl
  have hsaves : g.saves = g'.saves := h.same Game.saves fun _ => rfl
  rw [hsnapshot, hsaves]
  refine Abreast.bind (Abreast.lift _) fun data => ?_
  split
  · rename_i saves _
    exact fun _ _ _ => ⟨rfl, Plain.alike (f := fun g => { g with saves }) (fun _ => ⟨rfl, rfl, rfl⟩) h⟩
  · exact Abreast.fault _

theorem finishRestoring : Blind K finishRestoring :=
  look (fun _ => rfl) fun _ => ite (bind (change fun _ => ⟨rfl, rfl, rfl⟩) fun _ => look (fun _ => rfl) fun _ =>
    (restoreSlot _).bind fun _ => look (fun _ => rfl) fun _ => (playMusic _).bind fun _ => clearKeys) (value _)

theorem loadKeys (name : String) : Blind K (loadKeys name) := change fun _ => ⟨rfl, rfl, rfl⟩

end Blind

end Adventure.Game
