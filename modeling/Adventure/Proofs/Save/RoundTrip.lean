import Adventure.Save.Reader
import Adventure.Proofs.Bytes.Reading
import Adventure.Proofs.Save.Layout
import Adventure.Proofs.Within

/-! A saved game is read back as it was written. Each part of the file is read as the value
it was made from, and the bag is cut where one sprite ends and the next begins. -/

namespace Adventure.SaveState

open Cursor (Gives gives_i16 gives_u8 gives_u16 gives_u32 gives_bytes gives_times)

/-! ### Words and names -/

theorem wordsBytes_cons (v : Int16) (l : List Int16) : wordsBytes (v :: l) = wordBytes v ++ wordsBytes l :=
  List.flatMap_cons

/-- A vector is made again from its entries. -/
theorem ofFn_toList {α : Type} {n : Nat} (v : Vector α n) (a : α) :
    (Vector.ofFn fun i : Fin n => v.toList[i.val]?.getD a) = v := by
  ext i hi
  rw [Vector.getElem_ofFn, List.getElem?_eq_getElem (by simpa using hi), Option.getD_some, Vector.getElem_toList]

theorem gives_count {n max : Nat} (what : String) (hn : n ≤ max) (hmax : max < 65536) :
    Gives (readCount what max) n (countBytes n) := by
  have hcount : n.toUInt16.toNat = n := UInt16.toNat_ofNat_of_lt' (Nat.lt_of_le_of_lt hn hmax)
  refine (gives_u16 n.toUInt16).bind_nil ?_
  rw [hcount]
  simp only [if_neg (Nat.not_lt.mpr hn)]
  exact Gives.value n

theorem gives_table {α : Type} {item : ReadM SaveError α} {entry : α → List UInt8} {l : List α} {max : Nat}
    (what : String) (hl : l.length ≤ max) (hmax : max < 65536) (h : ∀ a ∈ l, Gives item a (entry a)) :
    Gives (readCount what max >>= Cursor.times item) l (tableBytes entry l) :=
  (gives_count what hl hmax).bind (gives_times h)

theorem gives_words {l : List Int16} {max : Nat} (what : String) (hl : l.length ≤ max) (hmax : max < 65536) :
    Gives (readTable what max) l (tableBytes wordBytes l) :=
  gives_table what hl hmax fun v _ => gives_i16 v

/-- A name that is read back from its field. -/
def FieldName (s : String) : Prop := ShortName s ∧ Text.NoZero s

instance (s : String) : Decidable (FieldName s) := inferInstanceAs (Decidable (_ ∧ _))

/-- A short name is read from its field, cut at its first zero. -/
theorem gives_cutName {s : String} (h : ShortName s) : Gives readName (Text.cut s) (nameBytes s) := by
  have hsize : (Bytes.ofList (nameBytes s)).size = nameSize := by
    rw [Bytes.size_ofList, nameBytes, List.length_append, Text.length_bytes, List.length_replicate]
    exact Nat.add_sub_cancel' (Nat.le_of_lt h)
  have hread := Gives.map Text.ofField (gives_bytes (ε := SaveError) hsize)
  have hcut : Text.ofField (Bytes.ofList (nameBytes s)) = Text.cut s := Text.ofField_eq_cut (Bytes.list_ofList _)
  rwa [hcut, Bytes.list_ofList] at hread

/-! ### Entries -/

theorem gives_vars (v : Vector Int16 numObjectVars) : Gives readVars v (wordsBytes v.toList) := by
  have hwords : Gives (Cursor.times Cursor.i16 v.toList.length : ReadM SaveError (List Int16)) v.toList
      (wordsBytes v.toList) := gives_times fun x _ => gives_i16 x
  have hread := hwords.map fun l => Vector.ofFn fun i : Fin numObjectVars => l[i.val]?.getD 0
  rwa [ofFn_toList, Vector.length_toList] at hread

/-- What is read of an object with short names. -/
def cutObject (o : SceneObject) : SceneObject := { o with name := Text.cut o.name, className := Text.cut o.className }

theorem gives_cutObject {o : SceneObject} (hname : ShortName o.name) (hclass : ShortName o.className) :
    Gives readObject (cutObject o) (objectBytes o) := by
  simp only [objectBytes, objectWords, wordsBytes_cons, List.append_assoc]
  unfold readObject
  iterate 23 refine (gives_i16 _).bind ?_
  refine (gives_cutName hname).bind ((gives_cutName hclass).bind ?_)
  exact (gives_vars o.vars).map _

theorem gives_cutObjects {l : List SceneObject} (hl : l.length ≤ maxObjects)
    (hnames : ∀ o ∈ l, ShortName o.name ∧ ShortName o.className) :
    Gives (readCount "objects" maxObjects >>= Cursor.times readObject) (l.map cutObject) (tableBytes objectBytes l) :=
  (gives_count "objects" hl (by decide)).bind (Cursor.gives_times_map fun o ho => gives_cutObject (hnames o ho).1 (hnames o ho).2)

theorem cutObject_eq {o : SceneObject} (hname : Text.NoZero o.name) (hclass : Text.NoZero o.className) : cutObject o = o := by
  rw [cutObject, Text.cut_eq hname, Text.cut_eq hclass]

theorem map_cutObject {l : List SceneObject} (h : ∀ o ∈ l, Text.NoZero o.name ∧ Text.NoZero o.className) :
    l.map cutObject = l :=
  (List.map_congr_left fun o ho => cutObject_eq (h o ho).1 (h o ho).2).trans (List.map_id l)

theorem gives_box (x : SceneBox) : Gives readBox x (boxBytes x) := by
  simp only [boxBytes, wordsBytes_cons, List.append_assoc]
  unfold readBox
  iterate 4 refine (gives_i16 _).bind ?_
  refine (gives_u8 _).bind ?_
  iterate 3 refine (gives_i16 _).bind ?_
  exact Gives.value _

theorem gives_group (g : BoxGroup) : Gives readGroup g (groupBytes g) := by
  have hboxes : Gives (Cursor.times readBox g.toList.length) g.toList (groupBytes g) :=
    gives_times fun x _ => gives_box x
  have hread := hboxes.map fun l => Vector.ofFn fun i : Fin boxesPerGroup => l[i.val]?.getD {}
  rwa [ofFn_toList, Vector.length_toList] at hread

theorem gives_boxes {l : List BoxGroup} (hl : l.length ≤ numBoxGroups) : Gives readBoxes l (boxesBytes l) := by
  have hn : l.length * boxesPerGroup ≤ numBoxGroups * boxesPerGroup := Nat.mul_le_mul_right _ hl
  refine (gives_count _ hn (by decide)).bind ?_
  have hdiv : l.length * boxesPerGroup / boxesPerGroup = l.length := Nat.mul_div_cancel _ (by decide)
  simp only [Nat.mul_mod_left, ne_eq, not_true_eq_false, if_false, hdiv]
  exact gives_times fun g _ => gives_group g

theorem gives_status (s : ObjectStatus) : Gives readStatus s (statusBytes s) := by
  simp only [statusBytes, wordsBytes_cons]
  unfold readStatus
  iterate 6 refine (gives_i16 _).bind ?_
  exact Gives.value _

/-! ### The bag -/

theorem gives_cutBagName {p : Nat × String} (hoffset : p.1 < 65536) (hname : ShortName p.2) :
    Gives readBagName (p.1, Text.cut p.2) (bagNameBytes p) := by
  have hcount : p.1.toUInt16.toNat = p.1 := UInt16.toNat_ofNat_of_lt' hoffset
  refine (gives_u16 p.1.toUInt16).bind ?_
  rw [hcount]
  exact (gives_cutName hname).map (p.1, ·)

theorem bagSize_eq (bag : List BagEntry) : bagSize bag = (bag.flatMap (Bytes.list ·.data)).length := by
  induction bag with
  | nil => rfl
  | cons e bag ih => rw [List.flatMap_cons, List.length_append, ← ih]; rfl

/-- Every entry starts within the data, at the latest at its end. -/
theorem offset_le {bag : List BagEntry} {offset : Nat} {p : Nat × String} (h : p ∈ bagNames offset bag) :
    p.1 ≤ offset + bagSize bag ∧ ∃ e ∈ bag, e.name = p.2 := by
  induction bag generalizing offset with
  | nil => cases h
  | cons e bag ih =>
    have hsize : bagSize (e :: bag) = e.data.size + bagSize bag := rfl
    cases h with
    | head => exact ⟨Nat.le_add_right _ _, e, List.mem_cons_self, rfl⟩
    | tail _ h =>
      obtain ⟨hle, x, hx, hname⟩ := ih h
      exact ⟨by omega, x, List.mem_cons_of_mem _ hx, hname⟩

/-- The data behind `front` is cut into the sprites it was made of. -/
theorem splitBag_bagNames {data : ByteArray} {bag : List BagEntry} (front : List UInt8) (index : Nat)
    (h : Bytes.list data = front ++ bag.flatMap (Bytes.list ·.data)) :
    splitBag data index (bagNames front.length bag) = .ok bag := by
  induction bag generalizing front index with
  | nil => rfl
  | cons e bag ih =>
    rw [List.flatMap_cons] at h
    have hsize := congrArg List.length h
    rw [List.length_append, List.length_append, Bytes.length_list, Bytes.length_list] at hsize
    -- The next entry, or the end of the data, is where this sprite ends.
    have hstop : spriteEnd data.size (bagNames (front.length + e.data.size) bag) = front.length + e.data.size := by
      cases bag with
      | nil => rw [hsize]; rfl
      | cons x bag => rfl
    have hheld : Bytes.Holds data 0 (front ++ (Bytes.list e.data ++ bag.flatMap (Bytes.list ·.data))) :=
      h ▸ Bytes.holds_list data
    have hdata : data.extract front.length (front.length + e.data.size) = e.data := by
      have hextract := hheld.right.left.extract
      rw [Nat.zero_add, Bytes.length_list] at hextract
      exact Bytes.list_inj hextract
    have hrest := ih (front ++ Bytes.list e.data) (index + 1) (by rw [h, List.append_assoc])
    rw [List.length_append, Bytes.length_list] at hrest
    have hinside : ¬(front.length + e.data.size < front.length ∨ data.size < front.length + e.data.size) := by
      omega
    rw [bagNames, splitBag]
    simp only [hstop, if_neg hinside, hdata, hrest]
    rfl

/-- What is read of an entry with a short name. -/
def cutEntry (e : BagEntry) : BagEntry := { e with name := Text.cut e.name }

theorem bagNames_cutEntry (offset : Nat) (bag : List BagEntry) :
    bagNames offset (bag.map cutEntry) = (bagNames offset bag).map fun p => (p.1, Text.cut p.2) := by
  induction bag generalizing offset with
  | nil => rfl
  | cons e bag ih => rw [List.map_cons, bagNames, ih, bagNames, List.map_cons, cutEntry]

theorem gives_cutBag {bag : List BagEntry} (hlen : bag.length ≤ maxBag) (hsize : bagSize bag < 0xFFFF)
    (hnames : ∀ e ∈ bag, ShortName e.name) : Gives readBag (bag.map cutEntry) (bagBytes bag) := by
  have hdata : (Bytes.ofList (bag.flatMap (Bytes.list ·.data))).size = (bagSize bag).toUInt16.toNat := by
    have hcount : (bagSize bag).toUInt16.toNat = bagSize bag :=
      UInt16.toNat_ofNat_of_lt' (by change _ < 65536; omega)
    rw [Bytes.size_ofList, hcount, bagSize_eq]
  have hread := gives_bytes (ε := SaveError) hdata
  rw [Bytes.list_ofList] at hread
  refine (gives_u16 _).bind (hread.bind ?_)
  have hentry : ∀ p ∈ bagNames 0 bag, Gives readBagName (p.1, Text.cut p.2) (bagNameBytes p) := fun p hp => by
    obtain ⟨hle, e, he, hname⟩ := offset_le hp
    exact gives_cutBagName (by omega) (hname ▸ hnames e he)
  have hcount : (bagNames 0 bag).length ≤ maxBag := by rwa [length_bagNames]
  have hnamesRead := (gives_count "bag objects" hcount (by decide)).bind (Cursor.gives_times_map hentry)
  rw [← bagNames_cutEntry] at hnamesRead
  have hdata : Bytes.list (Bytes.ofList (bag.flatMap (Bytes.list ·.data))) =
      [] ++ (bag.map cutEntry).flatMap (Bytes.list ·.data) := by
    rw [Bytes.list_ofList, List.flatMap_map]
    rfl
  have hsplit : splitBag _ 0 (bagNames 0 (bag.map cutEntry)) = .ok (bag.map cutEntry) := splitBag_bagNames [] 0 hdata
  rw [← bind_assoc]
  refine hnamesRead.bind_nil ?_
  rw [hsplit]
  exact Gives.value _

theorem cutEntry_eq {e : BagEntry} (h : Text.NoZero e.name) : cutEntry e = e := by rw [cutEntry, Text.cut_eq h]

theorem map_cutEntry {bag : List BagEntry} (h : ∀ e ∈ bag, Text.NoZero e.name) : bag.map cutEntry = bag :=
  (List.map_congr_left fun e he => cutEntry_eq (h e he)).trans (List.map_id bag)

/-! ### The whole file -/

theorem gives_music {m : SavedMusic} (hname : Text.NoZero m.name) (hlen : m.name.utf8ByteSize < 65536) :
    Gives (readMusic true) (some m) (musicBytes m) := by
  have htext := Cursor.gives_string16 (ε := SaveError) hname 0 hlen
  rw [List.replicate_zero, List.append_nil] at htext
  have hskip : Gives (discard Cursor.u32 : ReadM SaveError Unit) () (Bytes.long m.track) :=
    (gives_u32 m.track).map fun _ => ()
  exact hskip.bind ((gives_u32 m.track).bind (htext.map fun name => some (SavedMusic.mk m.track name)))

theorem gives_cutHeader {s : SaveState} (hvars : s.defaultVars.length ≤ numVars) (hlen : s.sceneName.utf8ByteSize + 1 < 65536) :
    Gives readHeaderFrom ⟨s.defaultVars, Text.cut s.sceneName⟩ (headerBytes s) :=
  (gives_words "default vars" hvars (by decide)).bind
    ((Cursor.gives_cutString16 1 hlen).map fun name => SaveHeader.mk s.defaultVars name)

theorem gives_header {s : SaveState} (hvars : s.defaultVars.length ≤ numVars) (hname : Text.NoZero s.sceneName)
    (hlen : s.sceneName.utf8ByteSize + 1 < 65536) :
    Gives readHeaderFrom ⟨s.defaultVars, s.sceneName⟩ (headerBytes s) := by
  have hread := gives_cutHeader hvars hlen
  rwa [Text.cut_eq hname] at hread

/-- The tables of a game that is saved, whose names may be too long. -/
structure Orderly (s : SaveState) : Prop where
  defaultVars : s.defaultVars.length ≤ numVars
  objects : s.objects.length ≤ maxObjects
  boxCounts : s.boxCounts.length ≤ numBoxGroups
  boxes : s.boxes.length ≤ numBoxGroups
  vars : s.vars.length ≤ numVars
  statuses : s.statuses.length ≤ numStatuses
  bag : s.bag.length ≤ maxBag

/-- What is read of a game: its names are cut, and the music may be missing. -/
def cutNames (s : SaveState) (music : Option SavedMusic) : SaveState :=
  { s with sceneName := Text.cut s.sceneName, objects := s.objects.map cutObject, bag := s.bag.map cutEntry, music }

/-- A file is read up to its music, if the name of its scene has a length that fits, and the music as it is. -/
theorem Orderly.gives_from {s : SaveState} {withMusic : Bool} {music : Option SavedMusic} {l : List UInt8} (h : s.Orderly)
    (hw : s.Writable) (hlen : s.sceneName.utf8ByteSize + 1 < 65536) (hmusic : Gives (readMusic withMusic) music l) :
    Gives (readFrom withMusic) (cutNames s music) (frontBytes s ++ l) := by
  have hobjects := gives_cutObjects h.objects hw.1
  have hstatuses := gives_table "object statuses" h.statuses (by decide) fun x _ => gives_status x
  have hbag := gives_cutBag h.bag hw.2.1 hw.2.2
  unfold readFrom frontBytes
  simp only [List.append_assoc]
  refine (gives_cutHeader h.defaultVars hlen).bind ?_
  rw [← bind_assoc]
  refine hobjects.bind ((gives_words _ h.boxCounts (by decide)).bind ((gives_boxes h.boxes).bind
    ((gives_words _ h.vars (by decide)).bind ?_)))
  rw [← bind_assoc]
  refine hstatuses.bind ?_
  simp only [wordsBytes_cons, List.append_assoc]
  iterate 3 refine (gives_i16 _).bind ?_
  exact hbag.bind ((gives_i16 _).bind (hmusic.map _))

/-- What a file can hold: tables up to their sizes, a bag and names that fit, and no zero in a text. -/
structure Storable (s : SaveState) : Prop where
  defaultVars : s.defaultVars.length ≤ numVars
  sceneName : Text.NoZero s.sceneName ∧ s.sceneName.utf8ByteSize ≤ 65534
  objects : s.objects.length ≤ maxObjects
  objectNames : ∀ o ∈ s.objects, FieldName o.name ∧ FieldName o.className
  boxCounts : s.boxCounts.length ≤ numBoxGroups
  boxes : s.boxes.length ≤ numBoxGroups
  vars : s.vars.length ≤ numVars
  statuses : s.statuses.length ≤ numStatuses
  bag : s.bag.length ≤ maxBag
  bagSize : bagSize s.bag < 0xFFFF
  bagNames : ∀ e ∈ s.bag, FieldName e.name
  music : ∃ m, s.music = some m ∧ Text.NoZero m.name ∧ m.name.utf8ByteSize ≤ 65535

theorem Storable.orderly {s : SaveState} (h : Storable s) : s.Orderly :=
  ⟨h.defaultVars, h.objects, h.boxCounts, h.boxes, h.vars, h.statuses, h.bag⟩

theorem Storable.writable {s : SaveState} (h : Storable s) : s.Writable :=
  ⟨fun o ho => ⟨(h.objectNames o ho).1.1, (h.objectNames o ho).2.1⟩, h.bagSize, fun e he => (h.bagNames e he).1⟩

/-- Nothing is cut of what the file can hold. -/
theorem Storable.cutNames_eq {s : SaveState} (h : Storable s) (music : Option SavedMusic) :
    cutNames s music = { s with music } := by
  rw [cutNames, Text.cut_eq h.sceneName.1,
    map_cutObject fun o ho => ⟨(h.objectNames o ho).1.2, (h.objectNames o ho).2.2⟩,
    map_cutEntry fun e he => (h.bagNames e he).2]

/-- What the file can hold is read up to its music, and the music as it is. -/
theorem gives_front {s : SaveState} {withMusic : Bool} {music : Option SavedMusic} {l : List UInt8} (h : Storable s)
    (hmusic : Gives (readMusic withMusic) music l) : Gives (readFrom withMusic) { s with music } (frontBytes s ++ l) := by
  have hread := h.orderly.gives_from h.writable (Nat.lt_succ_of_le (Nat.succ_le_succ h.sceneName.2)) hmusic
  rwa [h.cutNames_eq] at hread

theorem gives_file {s : SaveState} (h : Storable s) : Gives (readFrom true) s (fileBytes s) := by
  obtain ⟨m, hm, hname, hlen⟩ := h.music
  have hread := gives_front h (gives_music hname (Nat.lt_succ_of_le hlen))
  rw [← hm] at hread
  rwa [fileBytes_eq, hm]

theorem write_eq {s : SaveState} (h : Storable s) : s.write = .ok (Bytes.ofList (fileBytes s)) :=
  s.write_ok_iff.mpr ⟨h.writable, rfl⟩

theorem read_fileBytes {s : SaveState} (h : Storable s) : read (Bytes.ofList (fileBytes s)) true = .ok s := by
  have hread := (gives_file h).run []
  rwa [List.append_nil] at hread

/-- Of the whole file only the variables and the name of the scene matter to its first part. -/
theorem readHeader_headerBytes {s : SaveState} (hvars : s.defaultVars.length ≤ numVars)
    (hname : Text.NoZero s.sceneName ∧ s.sceneName.utf8ByteSize ≤ 65534) :
    readHeader (Bytes.ofList (fileBytes s)) = .ok ⟨s.defaultVars, s.sceneName⟩ :=
  (gives_header hvars hname.1 (by have := hname.2; omega)).run _

theorem readHeader_fileBytes {s : SaveState} (h : Storable s) :
    readHeader (Bytes.ofList (fileBytes s)) = .ok ⟨s.defaultVars, s.sceneName⟩ :=
  readHeader_headerBytes h.defaultVars h.sceneName

/-- The variables at the start of a file are read back whatever the name of the scene is. -/
theorem defaultVars_of_readHeader {s : SaveState} {header : SaveHeader} (hvars : s.defaultVars.length ≤ numVars)
    (h : readHeader (Bytes.ofList (fileBytes s)) = .ok header) : header.defaultVars = s.defaultVars := by
  rw [fileBytes, headerBytes, List.append_assoc] at h
  obtain ⟨c, d, hname⟩ := (gives_words "default vars" hvars (by decide)).of_run h
  obtain ⟨name, d', -, hheader⟩ := bind_eq_ok.mp hname
  cases hheader
  rfl

/-- The first part of a file that is read as a whole is read. -/
theorem readHeader_of_read {d : ByteArray} {withMusic : Bool} {s : SaveState} (h : read d withMusic = .ok s) :
    ∃ header, readHeader d = .ok header := by
  unfold read Cursor.run at h
  unfold readHeader Cursor.run
  cases hheader : (readHeaderFrom ⟨d, 0⟩) with
  | ok header c => exact ⟨header, rfl⟩
  | error e c =>
    have hall : readFrom withMusic ⟨d, 0⟩ = .error e c := bind_eq_error.mpr (Or.inl hheader)
    rw [hall] at h
    cases h

/-- A file that breaks off behind the name of the scene is not read. -/
theorem read_headerBytes {s : SaveState} (hvars : s.defaultVars.length ≤ numVars)
    (hname : Text.NoZero s.sceneName ∧ s.sceneName.utf8ByteSize ≤ 65534) (withMusic : Bool) :
    read (Bytes.ofList (headerBytes s)) withMusic = .error (.read ⟨(headerBytes s).length, 2, 0⟩) := by
  have hown := Bytes.holds_list (Bytes.ofList (headerBytes s))
  rw [Bytes.list_ofList] at hown
  have hheader := gives_header hvars hname.1 (by have := hname.2; omega) ⟨Bytes.ofList (headerBytes s), 0⟩ hown
  have hend : (⟨Bytes.ofList (headerBytes s), 0 + (headerBytes s).length⟩ : Cursor).remaining = 0 := by
    simp only [Cursor.remaining, Bytes.size_ofList]
    omega
  have hcount : (Cursor.bytes 2 : ReadM SaveError ByteArray) ⟨Bytes.ofList (headerBytes s), 0 + (headerBytes s).length⟩ =
      .error (.read ⟨(headerBytes s).length, 2, 0⟩) ⟨Bytes.ofList (headerBytes s), 0 + (headerBytes s).length⟩ := by
    rw [Cursor.bytes, if_pos (by rw [hend]; decide), hend, Nat.zero_add]
    rfl
  have hfile : readFrom withMusic ⟨Bytes.ofList (headerBytes s), 0⟩ =
      .error (.read ⟨(headerBytes s).length, 2, 0⟩) ⟨Bytes.ofList (headerBytes s), 0 + (headerBytes s).length⟩ := by
    refine (bind_of_ok hheader).trans ?_
    exact bind_eq_error.mpr (Or.inl (bind_eq_error.mpr (Or.inl (bind_eq_error.mpr (Or.inl hcount)))))
  rw [read, Cursor.run, hfile]

/-- What can be stored is written, and read back as it was. -/
theorem read_write {s : SaveState} (h : Storable s) : ∃ d, s.write = .ok d ∧ read d true = .ok s :=
  ⟨_, write_eq h, read_fileBytes h⟩

/-- A game with an object, two sprites in the bag, one of them empty, and music. -/
def jackState : SaveState :=
  { empty "C1_02.SCN" with
    objects := [{ x := 100, y := -20, state := 1, name := "JACK", className := "HERO" }]
    bag := [⟨"KNIFE", Bytes.ofList [1, 2, 3]⟩, ⟨"ROPE", ByteArray.empty⟩]
    music := some ⟨7, "..\\midi\\jungle1.mid"⟩ }

theorem read_write_jackState :
    Storable jackState ∧ ∃ d, jackState.write = .ok d ∧ read d true = .ok jackState := by
  have hstorable : Storable jackState := {
    defaultVars := Nat.le_of_eq List.length_replicate
    sceneName := by decide
    objects := by decide
    objectNames := by decide
    boxCounts := by decide
    boxes := by decide
    vars := Nat.le_of_eq List.length_replicate
    statuses := Nat.le_of_eq List.length_replicate
    bag := by decide
    bagSize := by decide
    bagNames := by decide
    music := ⟨_, rfl, by decide, by decide⟩ }
  exact ⟨hstorable, read_write hstorable⟩

end Adventure.SaveState
