import Adventure.Proofs.Game.Played

/-! The bag of a game that is played: whatever scripts, descriptions and the player do, it has a few entries of different
names, and what is selected in it is there. A saved game brings its bag back, and its file cuts names at zeros, so that no name
of an entry, of an object or of a scene must have one. -/

namespace Adventure

/-- A name without zeros. That of a class is not asked for. -/
def Label.Plain : Label → Prop
  | .entry name | .object name | .scene name => Text.NoZero name
  | .objectClass _ => True

namespace Game

variable {g : Game}

/-- What a game that is saved has to say of its bag is read from its file. -/
theorem sound_saved {d : ByteArray} {s : SaveState} (hbag : g.bag.Sound) (hlabels : ∀ n ∈ g.labels, n.Plain)
    (hscene : Text.NoZero g.sceneFile) (hd : g.snapshot.write = .ok d) (hs : SaveState.read d true = .ok s) :
    s.heldBag.Sound := by
  have hplain : ∀ e ∈ g.bag.entries, Text.NoZero e.name := fun e he =>
    hlabels (.entry e.name) (List.mem_append_left _ (List.mem_map_of_mem he))
  obtain ⟨hw, rfl⟩ := (SaveState.write_ok_iff _).mp hd
  have horderly := orderly_snapshot hbag.few
  obtain ⟨-, hentries, hselected, haction⟩ := horderly.names_read hw (horderly.fits hscene hs) hs
  have hentries : s.bag = g.bag.entries.map SaveState.cutEntry := hentries
  have hselected : s.bagObject = g.bag.selected := hselected
  have haction : s.bagAction = g.bag.action := haction
  rw [SaveState.map_cutEntry hplain] at hentries
  have hheld : s.heldBag = { g.bag with x := s.bagX, y := s.bagY } := by
    rw [SaveState.heldBag, hentries, hselected, haction]
  have hmoved : Bag.Change g.HasObject g.bag s.heldBag := hheld ▸ .places _ _
  exact hmoved.sound hbag

/-- Whatever saved game is read, its file has cut the names at their zeros. -/
theorem plain_read {d : ByteArray} {s : SaveState} (hs : SaveState.read d true = .ok s) : ∀ n ∈ s.labels, n.Plain := by
  have haccepted := SaveState.read_accepted hs
  intro n hn
  obtain hn | hn := List.mem_append.mp hn
  · obtain ⟨e, he, rfl⟩ := List.mem_map.mp hn
    exact haccepted.bagNames e he
  · obtain ⟨o, ho, hn⟩ := List.mem_flatMap.mp hn
    exact Label.fits_ofTitle.mpr ⟨haccepted.objectNames o ho, trivial⟩ n hn

theorem soundBags : LabelLaw Label.Plain Bag.Sound where
  unnamed := ⟨(by decide : Text.NoZero ""), trivial, (by decide : Text.NoZero "")⟩
  scene := (by decide : ∀ name ∈ "END.SCN" :: firstScenes, Text.NoZero name)
  taken := id
  empty := Bag.sound_empty
  change h hb := h.sound hb
  saved hbag hlabels hscene hd := ⟨fun _ => SaveState.noZero_readHeader, fun _ => sound_saved hbag hlabels hscene hd, fun _ => plain_read⟩

/-- In every game that is played with names without zeros the bag has at most twenty entries of different names, an action
that there is and an entry that there is, or none. -/
theorem Played.bag_sound (hg : Played Label.Plain g) : g.bag.Sound := (hg.tidy soundBags).bag

/-! ### A bag that a scene fills -/

/-- Descriptions without zeros bring names without zeros, and so do movies, whatever is in them. -/
theorem plain_brought {d : DataDir} (hfiles : ∀ f ∈ d.files, '\x00' ∉ Text.latin1 (Text.stripComments f.content.toList))
    {c : Call} {load : M Unit} (hload : c.Loads load) {n : Label} (h : d.Brings load n) : n.Plain := by
  have hmovies : d.MoviesFit Label.Plain := .of_files fun _ _ movie hmovie n hn => by
    obtain ⟨o, ho, hn⟩ := List.mem_flatMap.mp hn
    exact Label.fits_ofTitle.mpr ⟨Movie.noZero_decode hmovie o ho, trivial⟩ n hn
  have hwords : Label.FromWords Text.NoZero Label.Plain :=
    ⟨(by decide : Text.NoZero ""), fun _ h => h, fun _ _ => trivial, fun _ h => Description.noZero_upper h⟩
  exact hload.fits_of_brings hwords hmovies (fun f hf => Description.wording_noZero (hfiles f hf)) h

/-- A scene with two things to carry. -/
def carryingFiles : DataDir where
  root := "DATA"
  files := [⟨"SCN/-01.SCN", plainBytes "Bag 1 2\nkey k\nmap k\nBagEnd"⟩, ⟨"SCN/k", plainBytes "picture"⟩]

noncomputable def carryingDemo : Game :=
  after (Call.loadScene "-01.SCN").perform { demoGame demoFiles "-01.SCN" with data := carryingFiles }

theorem played_carryingDemo : Played Label.Plain carryingDemo := by
  have hfiles : ∀ f ∈ carryingFiles.files, '\x00' ∉ Text.latin1 (Text.stripComments f.content.toList) := by decide +kernel
  refine (played_demo carryingFiles).call (fun name h => ?_) fun _ _ hload h => plain_brought hfiles hload h
  cases h
  exact (by decide : Text.NoZero "-01.SCN")

theorem Played.bag_sound_carryingDemo : Played Label.Plain carryingDemo ∧
    carryingDemo.bag.entries.map BagEntry.name = ["key", "map"] ∧ carryingDemo.bag.Sound := by
  have hpasses : passes (Call.loadScene "-01.SCN").perform
      (fun g => decide (g.bag.entries.map BagEntry.name = ["key", "map"]))
      { demoGame demoFiles "-01.SCN" with data := carryingFiles } = true := by decide +kernel
  obtain ⟨_, -, hentries⟩ := of_passes hpasses
  exact ⟨played_carryingDemo, of_decide_eq_true hentries, played_carryingDemo.bag_sound⟩

end Game

end Adventure
