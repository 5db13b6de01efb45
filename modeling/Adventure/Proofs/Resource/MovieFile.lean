import Adventure.Proofs.Bytes.Loops
import Adventure.Resource.Movie

/-! Files of movies. Between the names and the script a file has sections in any order, and an object has records in any
order. Sounds, boxes and objects add up, and so do the variables of an object; of what is told more than once the last one
counts. -/

namespace Adventure.Movie

/-! ### Bytes -/

/-- A text that can stand in a file. -/
def FileText (s : String) : Prop := Text.NoZero s ∧ s.utf8ByteSize < 65536

instance (s : String) : Decidable (FileText s) := inferInstanceAs (Decidable (_ ∧ _))

/-- A text with its length before it. -/
def textBytes (s : String) : List UInt8 := Bytes.word s.utf8ByteSize.toUInt16 ++ Text.bytes s

/-- A box with its group, which is counted from one. -/
def boxBytes (b : MovieBox) : List UInt8 :=
  Bytes.word (b.group + 1).toUInt16 ++ ([b.state] ++ (Bytes.word b.x₁.toUInt16 ++ (Bytes.word b.y₁.toUInt16 ++
    (Bytes.word b.x₂.toUInt16 ++ Bytes.word b.y₂.toUInt16))))

/-- A record of an object. Only the mode 2 has a factor, and motion and frame are counted from one in a file. -/
inductive Record where
  | className (name : String)
  | mode (mode factor : Int16)
  | place (x y : Int16)
  | depth (z : Int16)
  | flip (value : Int16)
  | frame (number : Int16)
  | motion (number : Int16)
  | var (index : Nat) (value : Int16)

namespace Record

def bytes : Record → List UInt8
  | className name => Bytes.word 2000 ++ textBytes name
  | mode m factor => Bytes.word 3000 ++ (Bytes.word m.toUInt16 ++ if m = 2 then Bytes.word factor.toUInt16 else [])
  | place x y => Bytes.word 3500 ++ (Bytes.word x.toUInt16 ++ Bytes.word y.toUInt16)
  | depth z => Bytes.word 4000 ++ Bytes.word z.toUInt16
  | flip value => Bytes.word 4500 ++ Bytes.word value.toUInt16
  | frame number => Bytes.word 5000 ++ Bytes.word (number + 1).toUInt16
  | motion number => Bytes.word 5500 ++ Bytes.word (number + 1).toUInt16
  | var index value => Bytes.word 6000 ++ (Bytes.word index.toUInt16 ++ Bytes.word value.toUInt16)

def Fits : Record → Prop
  | className name => FileText name
  | var index _ => index < objectVars.toNat
  | _ => True

instance : (r : Record) → Decidable r.Fits
  | className name => inferInstanceAs (Decidable (FileText name))
  | var index _ => inferInstanceAs (Decidable (index < objectVars.toNat))
  | mode .. | place .. | depth _ | flip _ | frame _ | motion _ => isTrue trivial

end Record

inductive Section where
  | sounds (names : List String)
  | boxes (boxes : List MovieBox)
  | object (name : String) (records : List Record)
  | unused (value : Int16)

namespace Section

/-- A list ends with an empty text or a zero. -/
def bytes : Section → List UInt8
  | sounds names => Bytes.word 1 ++ (names.flatMap textBytes ++ textBytes "")
  | boxes l => Bytes.word 2 ++ (l.flatMap boxBytes ++ Bytes.word 0)
  | object name records => Bytes.word 3 ++ (textBytes name ++ (records.flatMap Record.bytes ++ Bytes.word 0))
  | unused value => Bytes.word 5 ++ Bytes.word value.toUInt16

def Fits : Section → Prop
  | sounds names => ∀ s ∈ names, s ≠ "" ∧ FileText s
  | boxes l => ∀ b ∈ l, b.group < 65535
  | object name records => FileText name ∧ ∀ r ∈ records, r.Fits
  | unused _ => True

instance : (s : Section) → Decidable s.Fits
  | sounds names => inferInstanceAs (Decidable (∀ s ∈ names, s ≠ "" ∧ FileText s))
  | boxes l => inferInstanceAs (Decidable (∀ b ∈ l, b.group < 65535))
  | object name records => inferInstanceAs (Decidable (FileText name ∧ ∀ r ∈ records, r.Fits))
  | unused _ => isTrue trivial

end Section

/-- A file, with its sections and their records in the order in which they stand there. -/
structure File where
  bankName : String
  backgroundName : String
  speed : UInt16
  sections : List Section
  script : ByteArray

namespace File

def scriptBytes (script : ByteArray) : List UInt8 := Bytes.word 4 ++ (Bytes.word script.size.toUInt16 ++ Bytes.list script)

def bytes (f : File) : List UInt8 :=
  Bytes.word tag ++ (textBytes f.bankName ++ (textBytes f.backgroundName ++ (Bytes.word f.speed ++
    (f.sections.flatMap Section.bytes ++ scriptBytes f.script))))

structure Fits (f : File) : Prop where
  bankName : FileText f.bankName
  backgroundName : FileText f.backgroundName
  sections : ∀ s ∈ f.sections, s.Fits
  script : f.script.size < 65536

end File

/-! ### What a file tells -/

/-- What the last one of a kind tells. -/
def last {α β : Type} (kind : α → Option β) (default : β) (l : List α) : β := (l.filterMap kind).getLast?.getD default

theorem last_cons {α β : Type} (kind : α → Option β) (default : β) (a : α) (l : List α) :
    last kind default (a :: l) = last kind ((kind a).getD default) l := by
  unfold last
  cases h : kind a with
  | none =>
    rw [List.filterMap_cons_none h]
    rfl
  | some b =>
    rw [List.filterMap_cons_some h, List.getLast?_cons]
    rfl

/-- What records make of an object. -/
def Record.update (o : MovieObject) (l : List Record) : MovieObject where
  name := o.name
  className := last (fun | .className name => some name | _ => none) o.className l
  mode := last (fun | .mode m _ => some m | _ => none) o.mode l
  modeRandom := last (fun | .mode m factor => if m = 2 then some factor else none | _ => none) o.modeRandom l
  xInit := last (fun | .place x _ => some x | _ => none) o.xInit l
  yInit := last (fun | .place _ y => some y | _ => none) o.yInit l
  zInit := last (fun | .depth z => some z | _ => none) o.zInit l
  flipInit := last (fun | .flip value => some value | _ => none) o.flipInit l
  motionNum := last (fun | .motion number => some number | _ => none) o.motionNum l
  motionFrameNum := last (fun | .frame number => some number | _ => none) o.motionFrameNum l
  vars := o.vars ++ l.filterMap fun | .var index value => some (index, value) | _ => none

namespace Section

def soundNames : Section → List String
  | sounds names => names
  | _ => []

def boxList : Section → List MovieBox
  | boxes l => l
  | _ => []

def object? : Section → Option MovieObject
  | object name records => some (Record.update { name } records)
  | _ => none

def unused? : Section → Option Int16
  | unused value => some value
  | _ => none

end Section

/-- The movie that a file is of. -/
def File.movie (f : File) : Movie where
  bankName := f.bankName
  backgroundName := f.backgroundName
  speed := f.speed
  sounds := f.sections.flatMap Section.soundNames
  boxes := f.sections.flatMap Section.boxList
  objects := f.sections.filterMap Section.object?
  script := f.script
  unused := last Section.unused? 0 f.sections

/-! ### Record by record and section by section -/

namespace Record

/-- What a record changes. -/
def apply (o : MovieObject) : Record → MovieObject
  | className name => { o with className := name }
  | mode m factor => { o with mode := m, modeRandom := if m = 2 then factor else o.modeRandom }
  | place x y => { o with xInit := x, yInit := y }
  | depth z => { o with zInit := z }
  | flip value => { o with flipInit := value }
  | frame number => { o with motionFrameNum := number }
  | motion number => { o with motionNum := number }
  | var index value => { o with vars := o.vars ++ [(index, value)] }

/-- What records change in a row. -/
theorem foldl_apply (l : List Record) (o : MovieObject) : l.foldl apply o = update o l := by
  induction l generalizing o with
  | nil => rw [update, List.filterMap_nil, List.append_nil]; rfl
  | cons r l ih =>
    rw [List.foldl_cons, ih]
    cases r with
    | mode m factor =>
      simp only [update, last_cons, apply]
      split <;> rfl
    | var index value => simp only [update, last_cons, apply, List.filterMap_cons, List.append_assoc]; rfl
    | _ => simp only [update, last_cons, apply, List.filterMap_cons]; rfl

end Record

namespace Section

/-- What a section adds. -/
def apply (m : Movie) : Section → Movie
  | sounds names => { m with sounds := m.sounds ++ names }
  | boxes l => { m with boxes := m.boxes ++ l }
  | object name records => { m with objects := m.objects ++ [Record.update { name } records] }
  | unused value => { m with unused := value }

/-- What sections add in a row. -/
theorem foldl_apply (l : List Section) (m : Movie) : l.foldl apply m =
    { m with
      sounds := m.sounds ++ l.flatMap soundNames
      boxes := m.boxes ++ l.flatMap boxList
      objects := m.objects ++ l.filterMap object?
      unused := last unused? m.unused l } := by
  induction l generalizing m with
  | nil =>
    simp only [List.flatMap_nil, List.filterMap_nil, List.append_nil]
    rfl
  | cons s l ih =>
    rw [List.foldl_cons, ih]
    simp only [last_cons, List.flatMap_cons, List.filterMap_cons, ← List.append_assoc]
    cases s <;> simp only [apply, soundNames, boxList, object?, unused?, List.append_nil, List.append_assoc] <;> rfl

/-- The names of the objects of a row of sections. -/
def objectNames (l : List Section) : List String := (l.filterMap object?).map MovieObject.name

theorem objects_apply (m : Movie) (s : Section) : (apply m s).objects = m.objects ++ s.object?.toList := by
  cases s with
  | object name records => rfl
  | _ => exact (List.append_nil _).symm

theorem objectNames_cons (s : Section) (l : List Section) :
    objectNames (s :: l) = s.object?.toList.map MovieObject.name ++ objectNames l := by
  cases s <;> rfl

theorem objectNames_append (k l : List Section) : objectNames (k ++ l) = objectNames k ++ objectNames l := by
  rw [objectNames, List.filterMap_append, List.map_append]
  rfl

end Section

namespace File

/-- The movie before its sections are read. -/
def opened (f : File) : Movie where
  bankName := f.bankName
  backgroundName := f.backgroundName
  speed := f.speed

theorem movie_eq (f : File) : f.movie = { f.sections.foldl Section.apply f.opened with script := f.script } := by
  rw [Section.foldl_apply]
  rfl

end File

/-! ### A file for every movie -/

/-- A movie that there can be a file of. -/
structure Writable (m : Movie) : Prop where
  bankName : FileText m.bankName
  backgroundName : FileText m.backgroundName
  sounds : ∀ s ∈ m.sounds, s ≠ "" ∧ FileText s
  boxes : ∀ b ∈ m.boxes, b.group < 65535
  names : ∀ o ∈ m.objects, FileText o.name ∧ FileText o.className
  vars : ∀ o ∈ m.objects, ∀ v ∈ o.vars, v.1 < objectVars.toNat
  modeRandom : ∀ o ∈ m.objects, o.mode ≠ 2 → o.modeRandom = 0
  script : m.script.size < 65536

namespace Record

/-- Records that tell everything of an object. -/
def all (o : MovieObject) : List Record :=
  [className o.className, mode o.mode o.modeRandom, place o.xInit o.yInit, depth o.zInit, flip o.flipInit,
    frame o.motionFrameNum, motion o.motionNum] ++ o.vars.map fun v => var v.1 v.2

theorem foldl_vars (l : List (Nat × Int16)) (o : MovieObject) :
    (l.map fun v => var v.1 v.2).foldl apply o = { o with vars := o.vars ++ l } := by
  induction l generalizing o with
  | nil => rw [List.append_nil]; rfl
  | cons v l ih =>
    rw [List.map_cons, List.foldl_cons, ih, apply]
    simp only [List.append_assoc]
    rfl

theorem update_all {o : MovieObject} (h : o.mode ≠ 2 → o.modeRandom = 0) : update { name := o.name } (all o) = o := by
  rw [← foldl_apply, all, List.foldl_append, foldl_vars]
  have hfactor : (if o.mode = 2 then o.modeRandom else 0) = o.modeRandom := by
    split
    · rfl
    · rename_i hmode
      exact (h hmode).symm
  simp only [List.foldl_cons, List.foldl_nil, apply, List.nil_append, hfactor]

end Record

namespace Section

/-- Sections of these objects. -/
def ofObjects (l : List MovieObject) : List Section := l.map fun o => object o.name (Record.all o)

theorem foldl_ofObjects {l : List MovieObject} (h : ∀ o ∈ l, o.mode ≠ 2 → o.modeRandom = 0) (m : Movie) :
    (ofObjects l).foldl apply m = { m with objects := m.objects ++ l } := by
  induction l generalizing m with
  | nil => rw [List.append_nil]; rfl
  | cons o l ih =>
    rw [ofObjects, List.map_cons, List.foldl_cons]
    refine (ih (fun p hp => h p (List.mem_cons_of_mem _ hp)) _).trans ?_
    rw [apply, Record.update_all (h o List.mem_cons_self)]
    simp only [List.append_assoc]
    rfl

end Section

/-- A file that tells everything once. -/
def file (m : Movie) : File where
  bankName := m.bankName
  backgroundName := m.backgroundName
  speed := m.speed
  sections := [.sounds m.sounds, .boxes m.boxes] ++ Section.ofObjects m.objects ++ [.unused m.unused]
  script := m.script

theorem movie_file {m : Movie} (h : m.Writable) : m.file.movie = m := by
  rw [File.movie_eq, file]
  simp only [List.foldl_append, Section.foldl_ofObjects h.modeRandom]
  rfl

theorem Record.fits_all {o : MovieObject} (hclass : FileText o.className) (hvars : ∀ v ∈ o.vars, v.1 < objectVars.toNat) :
    ∀ r ∈ all o, r.Fits := by
  refine List.forall_mem_append.mpr ⟨?_, List.forall_mem_map.mpr hvars⟩
  refine List.forall_mem_cons.mpr ⟨hclass, ?_⟩
  simp only [List.forall_mem_cons, Fits, List.not_mem_nil, false_imp_iff, implies_true, and_self]

theorem fits_file {m : Movie} (h : m.Writable) : m.file.Fits := by
  refine ⟨h.bankName, h.backgroundName, ?_, h.script⟩
  refine List.forall_mem_append.mpr ⟨List.forall_mem_append.mpr ⟨?_, List.forall_mem_map.mpr fun o ho => ?_⟩, ?_⟩
  · exact List.forall_mem_cons.mpr ⟨h.sounds, List.forall_mem_singleton.mpr h.boxes⟩
  · exact ⟨(h.names o ho).1, Record.fits_all (h.names o ho).2 (h.vars o ho)⟩
  · exact List.forall_mem_singleton.mpr trivial

end Adventure.Movie
