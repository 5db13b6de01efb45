import Adventure.Proofs.Resource.MovieFile

/-! Reading the file of a movie gives the movie back, whatever stands behind the script. -/

namespace Adventure.Movie

open Cursor (Gives Faults Steps)

/-! ### Texts and lists -/

theorem gives_text {s : String} (h : FileText s) : Gives (Cursor.string16 : ReadM ResourceError String) s (textBytes s) := by
  have hread := Cursor.gives_string16 (ε := ResourceError) h.1 0 h.2
  rwa [List.replicate_zero, List.append_nil] at hread

theorem fileText_empty : FileText "" := ⟨List.not_mem_nil, by decide⟩

theorem gives_sound {s : String} (hs : s ≠ "") (h : FileText s) : Gives readSound (some s) (textBytes s) := by
  refine (gives_text h).bind_nil ?_
  rw [if_neg (by rwa [String.isEmpty_iff])]
  exact .value _

theorem gives_sounds {l : List String} (h : ∀ s ∈ l, s ≠ "" ∧ FileText s) :
    Gives (Cursor.items readSound) l (l.flatMap textBytes ++ textBytes "") := by
  refine Cursor.gives_items (fun s hs => gives_sound (h s hs).1 (h s hs).2) (fun s _ => List.cons_ne_nil _ _) ?_
  exact (gives_text fileText_empty).bind_nil (.value _)

theorem gives_box {b : MovieBox} (h : b.group < 65535) : Gives readBox (some b) (boxBytes b) := by
  have hgroup : (b.group + 1).toUInt16.toNat = b.group + 1 := UInt16.toNat_ofNat_of_lt' (Nat.succ_lt_succ h)
  have hne : (b.group + 1).toUInt16 ≠ 0 := by
    intro hzero
    rw [hzero] at hgroup
    exact Nat.succ_ne_zero _ hgroup.symm
  refine (Cursor.gives_u16 _).bind ?_
  rw [if_neg hne, hgroup]
  exact (Cursor.gives_u8 b.state).bind ((Cursor.gives_i16 b.x₁).bind ((Cursor.gives_i16 b.y₁).bind
    ((Cursor.gives_i16 b.x₂).bind ((Cursor.gives_i16 b.y₂).map _))))

theorem gives_boxes {l : List MovieBox} (h : ∀ b ∈ l, b.group < 65535) :
    Gives (Cursor.items readBox) l (l.flatMap boxBytes ++ Bytes.word 0) := by
  refine Cursor.gives_items (fun b hb => gives_box (h b hb)) (fun b _ => List.cons_ne_nil _ _) ?_
  exact (Cursor.gives_u16 0).bind_nil (.value _)

/-! ### Objects -/

/-- A number that is counted from one in a file. -/
theorem gives_counted (number : Int16) (f : Int16 → MovieObject) :
    Gives (do return .inl (f ((← Cursor.i16) - 1)) : ReadM ResourceError (MovieObject ⊕ MovieObject)) (.inl (f number))
      (Bytes.word (number + 1).toUInt16) := by
  have hread := (Cursor.gives_i16 (ε := ResourceError) (number + 1)).map fun v =>
    (.inl (f (v - 1)) : MovieObject ⊕ MovieObject)
  rwa [Int16.add_sub_cancel] at hread

namespace Record

theorem gives {r : Record} (h : r.Fits) (o : MovieObject) : Gives (readRecord o) (.inl (apply o r)) r.bytes := by
  cases r with
  | className name => exact (Cursor.gives_u16 2000).bind ((gives_text h).map _)
  | mode m factor =>
    refine (Cursor.gives_u16 3000).bind ((Cursor.gives_i16 m).bind ?_)
    by_cases hm : m = 2
    · rw [apply, if_pos hm, if_pos hm, if_pos hm]
      exact (Cursor.gives_i16 factor).map _
    · rw [apply, if_neg hm, if_neg hm, if_neg hm]
      exact .value _
  | place x y => exact (Cursor.gives_u16 3500).bind ((Cursor.gives_i16 x).bind ((Cursor.gives_i16 y).map _))
  | depth z => exact (Cursor.gives_u16 4000).bind ((Cursor.gives_i16 z).map _)
  | flip value => exact (Cursor.gives_u16 4500).bind ((Cursor.gives_i16 value).map _)
  | frame number => exact (Cursor.gives_u16 5000).bind (gives_counted number fun n => { o with motionFrameNum := n })
  | motion number => exact (Cursor.gives_u16 5500).bind (gives_counted number fun n => { o with motionNum := n })
  | var index value =>
    have hindex : index.toUInt16.toNat = index := UInt16.toNat_ofNat_of_lt' (Nat.lt_trans h (by decide))
    refine (Cursor.gives_u16 6000).bind ((Cursor.gives_u16 index.toUInt16).bind ?_)
    rw [if_neg (by rw [UInt16.le_iff_toNat_le, hindex]; exact Nat.not_le.mpr h), hindex]
    exact (Cursor.gives_i16 value).map _

theorem bytes_ne_nil (r : Record) : r.bytes ≠ [] := by cases r <;> exact List.cons_ne_nil _ _

end Record

theorem gives_object {name : String} (hname : FileText name) {records : List Record} (h : ∀ r ∈ records, r.Fits) :
    Gives readObject (Record.update { name } records)
      (textBytes name ++ (records.flatMap Record.bytes ++ Bytes.word 0)) := by
  have hsteps : Steps readRecord records.length { name } (records.flatMap Record.bytes) (records.foldl Record.apply { name }) :=
    Cursor.steps_foldl (I := fun l _ => ∀ r ∈ l, r.Fits)
      (fun r l o h => ⟨r.gives (h r List.mem_cons_self) o, fun r hr => h r (List.mem_cons_of_mem _ hr)⟩) h
  have hcount := Bytes.length_le_flatMap fun r (_ : r ∈ records) => r.bytes_ne_nil
  rw [Record.foldl_apply] at hsteps
  exact (gives_text hname).bind (Cursor.gives_loop hsteps hcount ((Cursor.gives_u16 0).bind_nil (.value _)))

/-! ### Sections -/

/-- There is an object of this name. -/
theorem any_name {l : List MovieObject} {name : String} :
    (l.any fun o => o.name = name) = true ↔ name ∈ l.map MovieObject.name := by
  rw [List.any_eq_true, List.mem_map]
  simp only [decide_eq_true_eq]

namespace Section

theorem bytes_ne_nil (s : Section) : s.bytes ≠ [] := by cases s <;> exact List.cons_ne_nil _ _

theorem gives {s : Section} (h : s.Fits) {m : Movie}
    (hnew : ∀ o ∈ s.object?, o.name ∉ m.objects.map MovieObject.name) :
    Gives (readSection m) (.inl (apply m s)) s.bytes := by
  cases s with
  | sounds names => exact (Cursor.gives_u16 1).bind ((gives_sounds h).map _)
  | boxes l => exact (Cursor.gives_u16 2).bind ((gives_boxes h).map _)
  | object name records =>
    refine (Cursor.gives_u16 3).bind ((gives_object h.1 h.2).bind_nil ?_)
    rw [if_neg (mt any_name.mp (hnew _ rfl))]
    exact .value _
  | unused value => exact (Cursor.gives_u16 5).bind ((Cursor.gives_i16 value).map _)

theorem faults {name : String} {records : List Record} (h : (object name records).Fits) {m : Movie}
    (hold : name ∈ m.objects.map MovieObject.name) :
    Faults (readSection m) (.duplicateObject name) (object name records).bytes := by
  have hname : (Record.update { name } records).name ∈ m.objects.map MovieObject.name := hold
  refine (Cursor.gives_u16 3).faults ((gives_object h.1 h.2).faults_nil ?_)
  rw [if_pos (any_name.mpr hname)]
  exact (Faults.throw _).bind

/-- Sections with objects of different names are all read. -/
theorem steps {l : List Section} (hfits : ∀ s ∈ l, s.Fits) {m : Movie}
    (hnames : (m.objects.map MovieObject.name ++ objectNames l).Nodup) :
    Steps readSection l.length m (l.flatMap bytes) (l.foldl apply m) := by
  refine Cursor.steps_foldl
    (I := fun l m => (∀ s ∈ l, s.Fits) ∧ (m.objects.map MovieObject.name ++ objectNames l).Nodup) (fun s l m h => ?_)
    ⟨hfits, hnames⟩
  obtain ⟨hfits, hnames⟩ := h
  rw [objectNames_cons, ← List.append_assoc, ← List.map_append, ← objects_apply] at hnames
  refine ⟨gives (hfits s List.mem_cons_self) fun o ho hold => ?_, fun s hs => hfits s (List.mem_cons_of_mem _ hs), hnames⟩
  have hfront := (List.nodup_append.mp hnames).1
  rw [objects_apply, Option.mem_def.mp ho, List.map_append] at hfront
  exact (List.nodup_append.mp hfront).2.2 _ hold _ List.mem_cons_self rfl

theorem length_le_bytes (l : List Section) : l.length ≤ (l.flatMap bytes).length :=
  Bytes.length_le_flatMap fun s _ => s.bytes_ne_nil

end Section

/-! ### Files -/

theorem gives_script {script : ByteArray} (h : script.size < 65536) (m : Movie) :
    Gives (readSection m) (.inr { m with script }) (File.scriptBytes script) := by
  have hsize : script.size.toUInt16.toNat = script.size := UInt16.toNat_ofNat_of_lt' h
  exact (Cursor.gives_u16 4).bind ((Cursor.gives_u16 _).bind ((Cursor.gives_bytes hsize.symm).map _))

/-- What holds of no items and not of all of them stops to hold with one of them. -/
theorem exists_first {α : Type} {P : List α → Prop} {l : List α} (hnil : P []) (hl : ¬P l) :
    ∃ before a after, l = before ++ a :: after ∧ P before ∧ ¬P (before ++ [a]) := by
  induction l generalizing P with
  | nil => exact absurd hnil hl
  | cons b l ih =>
    by_cases hb : P [b]
    · obtain ⟨before, a, after, rfl, hbefore, ha⟩ := ih (P := fun l => P (b :: l)) hb hl
      exact ⟨b :: before, a, after, rfl, hbefore, ha⟩
    · exact ⟨[], b, l, rfl, hnil, hb⟩

namespace File

variable {f : File}

theorem gives (hfits : f.Fits) (hnames : (f.movie.objects.map MovieObject.name).Nodup) : Gives read f.movie f.bytes := by
  have hsections := Cursor.gives_loop (Section.steps (m := f.opened) hfits.sections hnames) (Section.length_le_bytes _)
    (gives_script hfits.script _)
  rw [Section.foldl_apply] at hsections
  refine (Cursor.gives_u16 tag).bind ?_
  rw [if_neg (not_not_intro rfl)]
  exact (gives_text hfits.bankName).bind ((gives_text hfits.backgroundName).bind ((Cursor.gives_u16 f.speed).bind hsections))

/-- The first object whose name is there already. -/
theorem exists_duplicate (h : ¬(f.movie.objects.map MovieObject.name).Nodup) : ∃ before name records after,
    f.sections = before ++ .object name records :: after ∧ (Section.objectNames before).Nodup ∧
      name ∈ Section.objectNames before := by
  obtain ⟨before, s, after, hsections, hbefore, hs⟩ :=
    exists_first (P := fun l => (Section.objectNames l).Nodup) List.nodup_nil h
  rw [Section.objectNames_append] at hs
  cases s with
  | object name records =>
    refine ⟨before, name, records, after, hsections, hbefore, ?_⟩
    have hone : Section.objectNames [.object name records] = [name] := rfl
    rw [hone] at hs
    refine Decidable.byContradiction fun hname => hs (List.nodup_append.mpr ⟨hbefore, List.pairwise_singleton _ _, ?_⟩)
    intro other hother last hlast heq
    rw [heq, List.mem_singleton.mp hlast] at hother
    exact hname hother
  | _ => exact absurd hbefore (by rwa [show Section.objectNames [_] = [] from rfl, List.append_nil] at hs)

theorem faults (hfits : f.Fits) {before after : List Section} {name : String} {records : List Record}
    (hsections : f.sections = before ++ .object name records :: after) (hbefore : (Section.objectNames before).Nodup)
    (hname : name ∈ Section.objectNames before) : Faults read (.duplicateObject name) f.bytes := by
  have hall := hfits.sections
  rw [hsections, List.forall_mem_append, List.forall_mem_cons] at hall
  have hsteps := Section.steps (m := f.opened) hall.1 hbefore
  have hlast : Faults (readSection (before.foldl Section.apply f.opened)) (.duplicateObject name)
      (Section.object name records).bytes := by
    refine Section.faults hall.2.1 ?_
    rw [Section.foldl_apply]
    exact hname
  have hloop := (Cursor.faults_loop hsteps (Section.length_le_bytes _) hlast).append
    (after.flatMap Section.bytes ++ scriptBytes f.script)
  have hbytes : f.sections.flatMap Section.bytes ++ scriptBytes f.script =
      before.flatMap Section.bytes ++ (Section.object name records).bytes ++
        (after.flatMap Section.bytes ++ scriptBytes f.script) := by
    rw [hsections, List.flatMap_append, List.flatMap_cons]
    simp only [List.append_assoc]
  refine (Cursor.gives_u16 tag).faults ?_
  rw [if_neg (not_not_intro rfl), hbytes]
  exact (gives_text hfits.bankName).faults ((gives_text hfits.backgroundName).faults ((Cursor.gives_u16 f.speed).faults hloop))

end File

/-- The file of a movie is read back as the movie, in whatever order its sections and records stand and whatever stands behind
its script. Where a name is that of two objects, the first one that comes again is reported. -/
theorem decode_file {m : Movie} (hm : m.Writable) :
    (∃ f : File, f.Fits ∧ f.movie = m) ∧
      ∀ f : File, f.Fits → f.movie = m → ∀ behind : List UInt8,
        ((m.objects.map MovieObject.name).Nodup → decode (Bytes.ofList (f.bytes ++ behind)) = .ok m) ∧
        (¬(m.objects.map MovieObject.name).Nodup → ∃ before o after, m.objects = before ++ o :: after ∧
          (before.map MovieObject.name).Nodup ∧ o.name ∈ before.map MovieObject.name ∧
          decode (Bytes.ofList (f.bytes ++ behind)) = .error (.duplicateObject o.name)) := by
  refine ⟨⟨m.file, fits_file hm, movie_file hm⟩, ?_⟩
  rintro f hfits rfl behind
  -- reading stops at the first name that comes again, so what stands behind that object does not matter
  refine ⟨fun hnames => (f.gives hfits hnames).run behind, fun hnames => ?_⟩
  obtain ⟨before, name, records, after, hsections, hbefore, hname⟩ := File.exists_duplicate hnames
  refine ⟨before.filterMap Section.object?, Record.update { name } records, after.filterMap Section.object?, ?_, hbefore,
    hname, (File.faults hfits hsections hbefore hname).run behind⟩
  rw [File.movie, hsections, List.filterMap_append, List.filterMap_cons]
  rfl

/-- An object that does not tell all of its fields. -/
def hero : MovieObject where
  name := "HERO"
  className := "PLAYER"
  mode := 2
  modeRandom := 7
  xInit := 100
  yInit := 200
  motionNum := 1
  vars := [(4, 9)]

def heroMovie (n : Nat) : Movie where
  bankName := "HERO.SPR"
  backgroundName := "ROOM.WGP"
  speed := 80
  sounds := ["STEP.WAV"]
  boxes := [⟨2, 1, 1, 2, 3, 4⟩]
  objects := List.replicate n hero
  script := Bytes.ofList [1, 2, 3]
  unused := 12

/-- A file with its sections out of order and with values that do not last. -/
def heroFile (n : Nat) : File where
  bankName := "HERO.SPR"
  backgroundName := "ROOM.WGP"
  speed := 80
  sections := [.unused 3, .boxes [⟨2, 1, 1, 2, 3, 4⟩]] ++
    List.replicate n (.object "HERO" [.var 4 9, .mode 2 7, .motion 1, .place 5 6, .className "PLAYER", .place 100 200]) ++
    [.unused 12, .sounds ["STEP.WAV"]]
  script := Bytes.ofList [1, 2, 3]

theorem writable_heroMovie (n : Nat) : (heroMovie n).Writable where
  bankName := (by decide : FileText "HERO.SPR")
  backgroundName := (by decide : FileText "ROOM.WGP")
  sounds := (by decide : ∀ s ∈ ["STEP.WAV"], s ≠ "" ∧ FileText s)
  boxes := List.forall_mem_singleton.mpr (by decide : 2 < 65535)
  names o ho := by
    obtain rfl : o = hero := List.eq_of_mem_replicate ho
    decide
  vars o ho := by
    obtain rfl : o = hero := List.eq_of_mem_replicate ho
    decide
  modeRandom o ho := by
    obtain rfl : o = hero := List.eq_of_mem_replicate ho
    decide
  script := (by decide : 3 < 65536)

theorem fits_heroFile (n : Nat) : (heroFile n).Fits where
  bankName := (by decide : FileText "HERO.SPR")
  backgroundName := (by decide : FileText "ROOM.WGP")
  sections s hs := by
    simp only [heroFile, List.mem_append, List.mem_cons, List.not_mem_nil, or_false] at hs
    obtain ((rfl | rfl) | hs) | (rfl | rfl) := hs
    · decide
    · decide
    · rw [List.eq_of_mem_replicate hs]
      decide
    · decide
    · decide
  script := (by decide : 3 < 65536)

/-- A file of one hero, and one of two. -/
theorem decode_file_heroes : decode (Bytes.ofList ((heroFile 1).bytes ++ [255])) = .ok (heroMovie 1) ∧
    decode (Bytes.ofList ((heroFile 2).bytes ++ [255])) = .error (.duplicateObject "HERO") := by
  obtain ⟨-, hone⟩ := decode_file (writable_heroMovie 1)
  obtain ⟨-, htwo⟩ := decode_file (writable_heroMovie 2)
  refine ⟨(hone (heroFile 1) (fits_heroFile 1) rfl [255]).1 (by decide), ?_⟩
  obtain ⟨before, o, after, hobjects, -, -, hread⟩ := (htwo (heroFile 2) (fits_heroFile 2) rfl [255]).2 (by decide)
  have ho : o ∈ (heroMovie 2).objects := hobjects ▸ List.mem_append_right _ List.mem_cons_self
  obtain rfl : o = hero := List.eq_of_mem_replicate ho
  exact hread

end Adventure.Movie
