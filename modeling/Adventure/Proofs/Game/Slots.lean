import Adventure.Game.Slots
import Adventure.Proofs.Save.RoundTrip
import Adventure.Proofs.Within

/-! A saved game is put back in place. The tables of the saved game take the place of those
that are there; what a slot of the objects holds beyond them is left alone. -/

namespace Adventure.Game

/-! ### Tables -/

section

variable {α : Type} {n : Nat}

theorem getElem_overwrite (t : Vector α n) (l : List α) {i : Nat} (hi : i < n) :
    (overwrite t l)[i] = l[i]?.getD t[i] := Vector.getElem_ofFn _

/-- The slots beyond the list stay as they are. -/
theorem getElem_overwrite_of_le (t : Vector α n) {l : List α} {i : Nat} (hi : i < n) (hl : l.length ≤ i) :
    (overwrite t l)[i] = t[i] := by
  rw [getElem_overwrite, List.getElem?_eq_none hl, Option.getD_none]

/-- A list of full size is all that is left. -/
theorem overwrite_toList (t v : Vector α n) : overwrite t v.toList = v := by
  ext i hi
  have hi' : i < v.toList.length := by rwa [Vector.length_toList]
  rw [getElem_overwrite, List.getElem?_eq_getElem hi', Option.getD_some, Vector.getElem_toList]

theorem take_overwrite (t : Vector α n) {l : List α} (hl : l.length ≤ n) :
    (overwrite t l).toList.take l.length = l := by
  apply List.ext_getElem
  · rw [List.length_take, Vector.length_toList, Nat.min_eq_left hl]
  · intro i hi hi'
    rw [List.getElem_take, Vector.getElem_toList, getElem_overwrite, List.getElem?_eq_getElem hi',
      Option.getD_some]

end

/-- The numbers of boxes are kept as words. -/
theorem clamp_boxCounts {l : List Nat} (h : ∀ n ∈ l, n ≤ boxesPerGroup) :
    (l.map Int16.ofNat).map (fun n => min n.toInt.toNat boxesPerGroup) = l := by
  have hword : ∀ n ≤ boxesPerGroup, min (Int16.ofNat n).toInt.toNat boxesPerGroup = n := by decide
  rw [List.map_map]
  exact (List.map_congr_left fun n hn => hword n (h n hn)).trans (List.map_id l)

/-- The sign of a track is lost in the file, and found again. -/
theorem ofInt_signed (w : UInt32) : UInt32.ofInt (signed w) = w := by
  have hsign : signed w = Int.bmod w.toNat (2 ^ 32) := BitVec.toInt_eq_toNat_bmod w.toBitVec
  have hmod : signed w % 2 ^ 32 = w.toNat := by
    have hlt := w.toNat_lt
    rw [hsign, show (2 : Int) ^ 32 = ((2 ^ 32 : Nat) : Int) from rfl, Int.bmod_emod]
    omega
  rw [UInt32.ofInt, hmod, Int.toNat_natCast, UInt32.ofNat_toNat]

/-! ### Restoring -/

/-- A game whose tables, bag and texts can be kept in a file. -/
structure Savable (g : Game) : Prop where
  objectsCount : g.tables.objectsCount ≤ maxObjects
  objectNames : ∀ o ∈ g.tables.activeObjects, Text.NoZero o.name ∧ Text.NoZero o.className
  boxCounts : ∀ n ∈ g.tables.boxCounts.toList, n ≤ boxesPerGroup
  bag : g.bag.entries.length ≤ maxBag
  bagNames : ∀ e ∈ g.bag.entries, Text.NoZero e.name
  sceneFile : Text.NoZero g.sceneFile ∧ g.sceneFile.utf8ByteSize ≤ 65534
  musicName : Text.NoZero g.music.name ∧ g.music.name.utf8ByteSize ≤ 65535

variable {g g₂ : Game}

theorem length_activeObjects {t : SceneTables} (h : t.objectsCount ≤ maxObjects) : t.activeObjects.length = t.objectsCount := by
  rw [SceneTables.activeObjects, List.length_take, Vector.length_toList, Nat.min_eq_left h]

theorem Savable.length_activeObjects (h : Savable g) : g.tables.activeObjects.length = g.tables.objectsCount :=
  Game.length_activeObjects h.objectsCount

theorem Savable.storable (h : Savable g) (hw : g.snapshot.Writable) : g.snapshot.Storable where
  defaultVars := Nat.le_of_eq g.defaultVars.length_toList
  sceneName := h.sceneFile
  objects := h.length_activeObjects ▸ h.objectsCount
  objectNames o ho := ⟨⟨(hw.1 o ho).1, (h.objectNames o ho).1⟩, (hw.1 o ho).2, (h.objectNames o ho).2⟩
  boxCounts := Nat.le_of_eq ((List.length_map Int16.ofNat).trans g.tables.boxCounts.length_toList)
  boxes := Nat.le_of_eq g.tables.boxes.length_toList
  vars := Nat.le_of_eq g.vars.length_toList
  statuses := Nat.le_of_eq g.tables.statuses.length_toList
  bag := h.bag
  bagSize := hw.2.1
  bagNames e he := ⟨hw.2.2 e he, h.bagNames e he⟩
  music := ⟨_, rfl, h.musicName⟩

/-- A snapshot put in place of a game is the snapshot of it again, but for the scene that is there. -/
theorem snapshot_restore (h : Savable g) (g₂ : Game) :
    (restore g.snapshot g₂).snapshot =
      { g.snapshot with sceneName := g₂.sceneFile, defaultVars := g₂.defaultVars.toList } := by
  have hlen : g.tables.activeObjects.length ≤ maxObjects :=
    h.length_activeObjects ▸ h.objectsCount
  simp only [snapshot, restore, restoreTables, SceneTables.activeObjects, overwrite_toList,
    clamp_boxCounts h.boxCounts, ofInt_signed]
  rw [← SceneTables.activeObjects, take_overwrite _ hlen]

/-- An error is wrapped, a value is not. -/
theorem ok_of_wrap {ε α : Type} {f : ε → GameError} {r : Except ε α} {a : α} (h : GameError.wrap f r = .ok a) : r = .ok a := by
  cases r with
  | ok b => cases h; rfl
  | error e => cases h

theorem ofExcept_ok {α : Type} {e : Except SaveError α} {a : α} (h : e = .ok a) :
    (ofExcept (GameError.wrap .save e) : M α) g = .ok a g := by
  rw [h]
  rfl

theorem loadHeader_ok {g₂ : Game} {slot : Nat} {d : ByteArray} {header : SaveHeader}
    (hslot : g₂.saves.readSlot? slot = some d) (hd : SaveState.readHeader d = .ok header) :
    loadHeader slot g₂ = .ok (some d)
      { g₂ with
        music := { g₂.music with file := none }
        vars := overwrite g₂.vars header.defaultVars
        nextFile := header.sceneName } := by
  unfold loadHeader
  refine (bind_of_ok (m := stopMusic) rfl).trans ((bind_of_ok (m := get) rfl).trans ?_)
  simp only [hslot]
  exact bind_of_ok (ofExcept_ok hd)

theorem restoreSlot_ok {g₂ : Game} {slot : Nat} {d : ByteArray} {header : SaveHeader} {s : SaveState}
    (hslot : g₂.saves.readSlot? slot = some d) (hheader : SaveState.readHeader d = .ok header)
    (hs : SaveState.read d true = .ok s) :
    restoreSlot slot g₂ = .ok ()
      (restore s { g₂ with
        music := { g₂.music with file := none }
        vars := overwrite g₂.vars header.defaultVars
        nextFile := header.sceneName }) := by
  unfold restoreSlot
  refine (bind_of_ok (loadHeader_ok hslot hheader)).trans ?_
  exact bind_of_ok (ofExcept_ok hs)

/-! ### What loading comes to -/

/-- No music is played. -/
def silenced (g : Game) : Game := { g with music := { g.music with file := none } }

/-- The first part of a saved game has been taken. -/
def headed (h : SaveHeader) (g : Game) : Game :=
  { g.silenced with vars := overwrite g.vars h.defaultVars, nextFile := h.sceneName }

theorem loadHeader_none {slot : Nat} (hslot : g.saves.readSlot? slot = none) : loadHeader slot g = .ok none g.silenced := by
  unfold loadHeader
  refine (bind_of_ok (m := stopMusic) rfl).trans ((bind_of_ok (m := get) rfl).trans ?_)
  simp only [hslot]
  rfl

theorem loadHeader_error {slot : Nat} {d : ByteArray} {e : SaveError} (hslot : g.saves.readSlot? slot = some d)
    (hd : SaveState.readHeader d = .error e) : loadHeader slot g = .error (.save e) g.silenced := by
  unfold loadHeader
  refine (bind_of_ok (m := stopMusic) rfl).trans ((bind_of_ok (m := get) rfl).trans ?_)
  simp only [hslot, hd]
  rfl

theorem loadHeader_leads (slot : Nat) (g : Game) :
    Leads (loadHeader slot) g
      (fun r g' => (r = none ∧ g.saves.readSlot? slot = none ∧ g' = g.silenced) ∨
        ∃ d h, r = some d ∧ g.saves.readSlot? slot = some d ∧ SaveState.readHeader d = .ok h ∧ g' = g.headed h)
      fun g' => ∃ d e, g.saves.readSlot? slot = some d ∧ SaveState.readHeader d = .error e ∧ g' = g.silenced := by
  unfold Leads
  cases hslot : g.saves.readSlot? slot with
  | none =>
    rw [loadHeader_none hslot]
    exact Or.inl ⟨rfl, rfl, rfl⟩
  | some d =>
    cases hd : SaveState.readHeader d with
    | ok h =>
      rw [loadHeader_ok hslot hd]
      exact Or.inr ⟨d, h, rfl, rfl, hd, rfl⟩
    | error e =>
      rw [loadHeader_error hslot hd]
      exact ⟨d, e, rfl, hd, rfl⟩

theorem restoreSlot_leads (slot : Nat) (g : Game) :
    Leads (restoreSlot slot) g
      (fun _ g' => (g.saves.readSlot? slot = none ∧ g' = g.silenced) ∨
        ∃ d h s, g.saves.readSlot? slot = some d ∧ SaveState.readHeader d = .ok h ∧ SaveState.read d true = .ok s ∧
          g' = restore s (g.headed h))
      fun g' => ∃ d e, g.saves.readSlot? slot = some d ∧
        (SaveState.readHeader d = .error e ∧ g' = g.silenced ∨
          ∃ h, SaveState.readHeader d = .ok h ∧ SaveState.read d true = .error e ∧ g' = g.headed h) := by
  refine Leads.bind ((loadHeader_leads slot g).mono (fun r g₁ h₁ => ?_) fun _ h => ?_)
  · obtain ⟨rfl, hslot, rfl⟩ | ⟨d, h, rfl, hslot, hd, rfl⟩ := h₁
    · exact Or.inl ⟨hslot, rfl⟩
    · dsimp only
      cases hs : SaveState.read d true with
      | ok s => exact Or.inr ⟨d, h, s, hslot, hd, hs, rfl⟩
      | error e => exact ⟨d, e, hslot, Or.inr ⟨h, hd, hs, rfl⟩⟩
  · obtain ⟨d, e, hslot, hd, rfl⟩ := h
    exact ⟨d, e, hslot, Or.inl ⟨hd, rfl⟩⟩

theorem requestSlot_leads (slot : Nat) (g : Game) :
    Leads (requestSlot slot) g
      (fun _ g' => (g.saves.readSlot? slot = none ∧ g' = g.silenced) ∨
        ∃ d h, g.saves.readSlot? slot = some d ∧ SaveState.readHeader d = .ok h ∧ g' = { g.headed h with switching := true })
      fun g' => ∃ d e, g.saves.readSlot? slot = some d ∧ SaveState.readHeader d = .error e ∧ g' = g.silenced := by
  refine Leads.bind ((loadHeader_leads slot g).mono (fun r g₁ h₁ => ?_) fun _ h => h)
  obtain ⟨rfl, hslot, rfl⟩ | ⟨d, h, rfl, hslot, hd, rfl⟩ := h₁
  · exact Or.inl ⟨hslot, rfl⟩
  · exact Or.inr ⟨d, h, hslot, hd, rfl⟩

/-- Saving puts a file of the game into the folder of saved games. -/
theorem saveSlot_leads (slot : Nat) (g : Game) :
    Leads (saveSlot slot) g
      (fun _ g' => ∃ data saves, g.snapshot.write = .ok data ∧ g.saves.writeSlot? slot data = some saves ∧ g' = { g with saves })
      fun g' => g' = g := by
  refine Leads.look (Leads.bind ((Leads.lift _ g).mono (fun data g' h => ?_) fun _ h => h))
  obtain ⟨rfl, hdata⟩ := h
  split
  · rename_i saves hsaves
    exact ⟨data, saves, ok_of_wrap hdata, hsaves, rfl⟩
  · exact rfl

/-- A game that was written to a slot takes the place of any other game. Its scene is asked for and
not switched to yet, and the slots beyond its objects stay as they are. -/
theorem restoreSlot_snapshot {slot : Nat} {d : ByteArray} (h : Savable g) (hd : g.snapshot.write = .ok d)
    (hslot : g₂.saves.readSlot? slot = some d) :
    ∃ g₃, restoreSlot slot g₂ = .ok () g₃ ∧
      g₃.snapshot =
        { g.snapshot with sceneName := g₂.snapshot.sceneName, defaultVars := g₂.snapshot.defaultVars } ∧
      g₃.nextFile = g.sceneFile ∧
      ∀ i (hi : i < maxObjects), g.tables.objectsCount ≤ i → g₃.tables.objects[i] = g₂.tables.objects[i] := by
  obtain ⟨hw, rfl⟩ := (SaveState.write_ok_iff g.snapshot).mp hd
  have hstorable := h.storable hw
  refine ⟨_, restoreSlot_ok hslot (SaveState.readHeader_fileBytes hstorable) (SaveState.read_fileBytes hstorable),
    snapshot_restore h _, rfl, fun i hi hcount => ?_⟩
  exact getElem_overwrite_of_le g₂.tables.objects hi (h.length_activeObjects ▸ hcount)

/-- A game with one object, a sprite in the bag and music. -/
def jackGame : Game :=
  { (default : Game) with
    tables := {
      objects := Vector.replicate maxObjects { x := 100, name := "JACK", className := "HERO" }
      objectsCount := 1 }
    bag := { entries := [⟨"KNIFE", Bytes.ofList [1, 2, 3]⟩], selected := 0 }
    sceneFile := "C1_02.SCN"
    music := { name := "..\\midi\\jungle1.mid", track := -1 } }

theorem savable_jackGame : Savable jackGame where
  objectsCount := by decide
  objectNames := by decide
  boxCounts := by decide
  bag := by decide
  bagNames := by decide
  sceneFile := by decide
  musicName := by decide

theorem write_jackGame :
    jackGame.snapshot.write = .ok (Bytes.ofList (SaveState.fileBytes jackGame.snapshot)) := by
  rw [SaveState.write_ok_iff]
  exact ⟨⟨by decide, by decide, by decide⟩, rfl⟩

/-- A game whose third slot is in use. -/
def slotGame (d : ByteArray) : Game := { (default : Game) with saves := ⟨".", some [⟨Settings.slotName 3, d⟩]⟩ }

theorem restoreSlot_snapshot_jackGame :
    ∃ d, Savable jackGame ∧ jackGame.snapshot.write = .ok d ∧ (slotGame d).saves.readSlot? 3 = some d ∧
      ∃ g₃, restoreSlot 3 (slotGame d) = .ok () g₃ ∧
        g₃.snapshot = { jackGame.snapshot with
          sceneName := (slotGame d).snapshot.sceneName
          defaultVars := (slotGame d).snapshot.defaultVars } ∧
        g₃.nextFile = jackGame.sceneFile ∧
        ∀ i (hi : i < maxObjects), jackGame.tables.objectsCount ≤ i →
          g₃.tables.objects[i] = (slotGame d).tables.objects[i] := by
  have hslot (d : ByteArray) : (slotGame d).saves.readSlot? 3 = some d := by
    simp [slotGame, SaveFolder.readSlot?, SaveFolder.find?]
  exact ⟨_, savable_jackGame, write_jackGame, hslot _,
    restoreSlot_snapshot savable_jackGame write_jackGame (hslot _)⟩

/-! ### Loads that do not go through -/

/-- Nothing that a load is to change has changed. -/
structure AsBefore (g g' : Game) : Prop where
  vars : g'.vars = g.vars
  defaultVars : g'.defaultVars = g.defaultVars
  objects : g'.tables.objects = g.tables.objects ∧ g'.tables.objectsCount = g.tables.objectsCount
  boxes : g'.tables.boxes = g.tables.boxes ∧ g'.tables.boxCounts = g.tables.boxCounts
  bag : g'.bag = g.bag
  statuses : g'.tables.statuses = g.tables.statuses
  nextFile : g'.nextFile = g.nextFile
  switching : g'.switching = g.switching
  musicName : g'.music.name = g.music.name
  musicFile : g'.music.file = g.music.file

theorem requestSlot_none {slot : Nat} (hslot : g.saves.readSlot? slot = none) : requestSlot slot g = .ok () g.silenced :=
  bind_of_ok (loadHeader_none hslot)

theorem restoreSlot_none {slot : Nat} (hslot : g.saves.readSlot? slot = none) : restoreSlot slot g = .ok () g.silenced :=
  bind_of_ok (loadHeader_none hslot)

/-- The file is read up to the name of its scene only. -/
theorem restoreSlot_error {slot : Nat} {d : ByteArray} {header : SaveHeader} {e : SaveError}
    (hslot : g.saves.readSlot? slot = some d) (hd : SaveState.readHeader d = .ok header) (hs : SaveState.read d true = .error e) :
    restoreSlot slot g = .error (.save e) (g.headed header) := by
  refine (bind_of_ok (loadHeader_ok hslot hd)).trans ?_
  simp only [hs]
  rfl

theorem readSlot?_slotGame (d : ByteArray) : (slotGame d).saves.readSlot? 3 = some d := by
  simp [slotGame, SaveFolder.readSlot?, SaveFolder.find?]

def cutState : SaveState := { SaveState.empty "C1_02.SCN" with defaultVars := [7] }

/-- Music plays, and the file in the third slot breaks off behind the name of its scene. -/
def cutDemo : Game := { slotGame (Bytes.ofList (SaveState.headerBytes cutState)) with
  music := { file := some "MUSIC/track03.ogg", name := "..\\midi\\jungle1.mid" } }

theorem readSlot?_cutDemo :
    cutDemo.saves.readSlot? 3 = some (Bytes.ofList (SaveState.headerBytes cutState)) ∧ cutDemo.saves.readSlot? 1 = none := by
  have hname : Settings.slotName 3 ≠ Settings.slotName 1 := by decide
  simp [cutDemo, slotGame, SaveFolder.readSlot?, SaveFolder.find?, hname]

theorem readHeader_cutState :
    SaveState.readHeader (Bytes.ofList (SaveState.headerBytes cutState)) = .ok ⟨[7], "C1_02.SCN"⟩ := by
  have hheader := (SaveState.gives_header (s := cutState) (by decide) (by decide) (by decide)).run []
  rwa [List.append_nil] at hheader

theorem read_cutState : ∃ e, SaveState.read (Bytes.ofList (SaveState.headerBytes cutState)) true = .error e :=
  ⟨_, SaveState.read_headerBytes (s := cutState) (by decide) (by decide) true⟩

/-- An empty slot silences the music, and a file that breaks off behind its first part changes variables and the scene to come. -/
theorem not_always_as_before :
    (¬∀ slot g, g.saves.readSlot? slot = none → AsBefore g (after (requestSlot slot) g)) ∧
      ¬∀ slot g e g', restoreSlot slot g = .error e g' → AsBefore g g' := by
  refine ⟨fun h => ?_, fun h => ?_⟩
  · have hfile := (h 1 cutDemo readSlot?_cutDemo.2).musicFile
    rw [after_of_ok (requestSlot_none readSlot?_cutDemo.2)] at hfile
    cases hfile
  · obtain ⟨e, hread⟩ := read_cutState
    have hnext : "C1_02.SCN" = "" :=
      (h 3 cutDemo _ _ (restoreSlot_error readSlot?_cutDemo.1 readHeader_cutState hread)).nextFile
    exact absurd hnext (by decide)

/-- A load from an empty slot does nothing but silence the music. A load of a file that is not read fails: where already
the first part is not read, the music is silenced, and where that part is read, a game that is to be restored
has taken the variables and the scene to come from it. Every other load goes through. -/
theorem load_incomplete (slot : Nat) (g : Game) :
    (g.saves.readSlot? slot = none → requestSlot slot g = .ok () g.silenced ∧ restoreSlot slot g = .ok () g.silenced) ∧
    (∀ d e, g.saves.readSlot? slot = some d → SaveState.readHeader d = .error e →
      requestSlot slot g = .error (.save e) g.silenced ∧ restoreSlot slot g = .error (.save e) g.silenced) ∧
    (∀ d h e, g.saves.readSlot? slot = some d → SaveState.readHeader d = .ok h → SaveState.read d true = .error e →
      requestSlot slot g = .ok () { g.headed h with switching := true } ∧
        restoreSlot slot g = .error (.save e) (g.headed h)) ∧
    ∀ d s, g.saves.readSlot? slot = some d → SaveState.read d true = .ok s →
      ∃ g₁ g₂, requestSlot slot g = .ok () g₁ ∧ restoreSlot slot g = .ok () g₂ := by
  refine ⟨fun hslot => ?_, fun d e hslot hd => ?_, fun d h e hslot hd hs => ?_, fun d s hslot hs => ?_⟩
  · exact ⟨requestSlot_none hslot, restoreSlot_none hslot⟩
  · have hheader := loadHeader_error hslot hd
    exact ⟨bind_eq_error.mpr (Or.inl hheader), bind_eq_error.mpr (Or.inl hheader)⟩
  · exact ⟨bind_of_ok (loadHeader_ok hslot hd), restoreSlot_error hslot hd hs⟩
  · obtain ⟨header, hheader⟩ := SaveState.readHeader_of_read hs
    exact ⟨_, _, bind_of_ok (loadHeader_ok hslot hheader), restoreSlot_ok hslot hheader hs⟩

theorem load_incomplete_cutDemo :
    requestSlot 1 cutDemo = .ok () cutDemo.silenced ∧
    (∃ e, requestSlot 3 (slotGame ByteArray.empty) = .error (.save e) (slotGame ByteArray.empty).silenced) ∧
    (∃ e, restoreSlot 3 cutDemo = .error (.save e) (cutDemo.headed ⟨[7], "C1_02.SCN"⟩)) ∧
    ∃ d g₁, requestSlot 3 (slotGame d) = .ok () g₁ := by
  obtain ⟨e, hread⟩ := read_cutState
  have hstorable := savable_jackGame.storable ((SaveState.write_ok_iff _).mp write_jackGame).1
  obtain ⟨g₁, -, h₁, -⟩ := (load_incomplete 3 (slotGame _)).2.2.2 _ _ (readSlot?_slotGame _) (SaveState.read_fileBytes hstorable)
  exact ⟨((load_incomplete 1 cutDemo).1 readSlot?_cutDemo.2).1, ⟨_, ((load_incomplete 3 _).2.1 _ _ (readSlot?_slotGame _) rfl).1⟩,
    ⟨e, ((load_incomplete 3 cutDemo).2.2.1 _ _ e readSlot?_cutDemo.1 readHeader_cutState hread).2⟩, _, g₁, h₁⟩

end Adventure.Game
