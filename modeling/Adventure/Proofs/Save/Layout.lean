import Adventure.Save.Writer
import Adventure.Proofs.Text.Utf8

/-! The bytes of a saved game, part by part. The writer makes a file if the names and the
bag fit, and only then; the file is made of the parts in a row. -/

namespace Adventure.SaveState

/-! ### Parts -/

def wordBytes (v : Int16) : List UInt8 := Bytes.word v.toUInt16

def wordsBytes (l : List Int16) : List UInt8 := l.flatMap wordBytes

def countBytes (n : Nat) : List UInt8 := Bytes.word n.toUInt16

/-- Entries with their count in front. -/
def tableBytes {α : Type} (entry : α → List UInt8) (l : List α) : List UInt8 :=
  countBytes l.length ++ l.flatMap entry

def nameBytes (s : String) : List UInt8 := Text.bytes s ++ List.replicate (nameSize - s.utf8ByteSize) 0

def objectBytes (o : SceneObject) : List UInt8 :=
  wordsBytes (objectWords o) ++ (nameBytes o.name ++ (nameBytes o.className ++ wordsBytes o.vars.toList))

def boxBytes (x : SceneBox) : List UInt8 :=
  wordsBytes [x.x₁, x.x₂, x.y₁, x.y₂] ++ ([x.state] ++ wordsBytes [x.z, x.startColor, x.endColor])

def groupBytes (g : BoxGroup) : List UInt8 := g.toList.flatMap boxBytes

def statusBytes (s : ObjectStatus) : List UInt8 := wordsBytes [s.x, s.y, s.z, s.motionNum, s.frameNum, s.flip]

/-- The offsets and names of the bag. -/
def bagNames (offset : Nat) : List BagEntry → List (Nat × String)
  | [] => []
  | e :: l => (offset, e.name) :: bagNames (offset + e.data.size) l

def bagNameBytes (p : Nat × String) : List UInt8 := countBytes p.1 ++ nameBytes p.2

def bagBytes (bag : List BagEntry) : List UInt8 :=
  countBytes (bagSize bag) ++ (bag.flatMap (Bytes.list ·.data) ++ tableBytes bagNameBytes (bagNames 0 bag))

def headerBytes (s : SaveState) : List UInt8 :=
  tableBytes wordBytes s.defaultVars ++
    (countBytes (s.sceneName.utf8ByteSize + 1) ++ (Text.bytes s.sceneName ++ [0]))

def boxesBytes (l : List BoxGroup) : List UInt8 := countBytes (l.length * boxesPerGroup) ++ l.flatMap groupBytes

def musicBytes (m : SavedMusic) : List UInt8 :=
  Bytes.long m.track ++ (Bytes.long m.track ++ (countBytes m.name.utf8ByteSize ++ Text.bytes m.name))

def fileBytes (s : SaveState) : List UInt8 :=
  headerBytes s ++ (tableBytes objectBytes s.objects ++ (tableBytes wordBytes s.boxCounts ++ (boxesBytes s.boxes ++
    (tableBytes wordBytes s.vars ++ (tableBytes statusBytes s.statuses ++
      (wordsBytes [s.bagX, s.bagY, s.bagObject] ++ (bagBytes s.bag ++
        (wordBytes s.bagAction ++ musicBytes (s.music.getD {})))))))))

/-- The file up to the music. -/
def frontBytes (s : SaveState) : List UInt8 :=
  headerBytes s ++ (tableBytes objectBytes s.objects ++ (tableBytes wordBytes s.boxCounts ++ (boxesBytes s.boxes ++
    (tableBytes wordBytes s.vars ++ (tableBytes statusBytes s.statuses ++
      (wordsBytes [s.bagX, s.bagY, s.bagObject] ++ (bagBytes s.bag ++ wordBytes s.bagAction)))))))

theorem fileBytes_eq (s : SaveState) : fileBytes s = frontBytes s ++ musicBytes (s.music.getD {}) := by
  simp only [fileBytes, frontBytes, List.append_assoc]

/-! ### The writer -/

variable {b d : ByteArray}

private theorem list_foldl {α : Type} (push : ByteArray → α → ByteArray) (bytes : α → List UInt8)
    (h : ∀ b a, Bytes.list (push b a) = Bytes.list b ++ bytes a) (b : ByteArray) (l : List α) :
    Bytes.list (l.foldl push b) = Bytes.list b ++ l.flatMap bytes := by
  induction l generalizing b with
  | nil => simp
  | cons a l ih => rw [List.foldl_cons, ih, h, List.append_assoc, List.flatMap_cons]

@[simp] theorem list_pushWord (b : ByteArray) (v : Int16) :
    Bytes.list (pushWord b v) = Bytes.list b ++ wordBytes v :=
  Bytes.list_push16 b _

@[simp] theorem list_pushCount (b : ByteArray) (n : Nat) :
    Bytes.list (pushCount b n) = Bytes.list b ++ countBytes n :=
  Bytes.list_push16 b _

@[simp] theorem list_pushWords (b : ByteArray) (l : List Int16) :
    Bytes.list (pushWords b l) = Bytes.list b ++ wordsBytes l :=
  list_foldl pushWord wordBytes list_pushWord b l

@[simp] theorem list_pushTable (b : ByteArray) (l : List Int16) :
    Bytes.list (pushTable b l) = Bytes.list b ++ tableBytes wordBytes l := by
  simp only [pushTable, list_pushWords, list_pushCount, List.append_assoc, tableBytes, wordsBytes]

@[simp] theorem list_pushBox (b : ByteArray) (x : SceneBox) :
    Bytes.list (pushBox b x) = Bytes.list b ++ boxBytes x := by
  simp only [pushBox, list_pushWords, Bytes.list_push, List.append_assoc, boxBytes]

@[simp] theorem list_pushGroup (b : ByteArray) (g : BoxGroup) :
    Bytes.list (pushGroup b g) = Bytes.list b ++ groupBytes g :=
  list_foldl pushBox boxBytes list_pushBox b g.toList

@[simp] theorem list_pushStatus (b : ByteArray) (s : ObjectStatus) :
    Bytes.list (pushStatus b s) = Bytes.list b ++ statusBytes s :=
  list_pushWords b _

theorem list_pushHeader (b : ByteArray) (s : SaveState) :
    Bytes.list (pushHeader b s) = Bytes.list b ++ headerBytes s := by
  simp only [pushHeader, Bytes.list_push, Bytes.list_append, list_pushCount, list_pushTable, List.append_assoc,
    headerBytes, Text.bytes]

theorem list_pushTables (b : ByteArray) (s : SaveState) :
    Bytes.list (pushTables b s) = Bytes.list b ++ (tableBytes wordBytes s.boxCounts ++ (boxesBytes s.boxes ++
      (tableBytes wordBytes s.vars ++ tableBytes statusBytes s.statuses))) := by
  simp only [pushTables, list_foldl pushStatus statusBytes list_pushStatus,
    list_foldl pushGroup groupBytes list_pushGroup, list_pushCount, list_pushTable, List.append_assoc, boxesBytes,
    tableBytes]

theorem list_pushMusic (b : ByteArray) (s : SaveState) :
    Bytes.list (pushMusic b s) = Bytes.list b ++ musicBytes (s.music.getD {}) := by
  simp only [pushMusic, pushText, Bytes.list_append, list_pushCount, Bytes.list_push32, List.append_assoc,
    musicBytes, Text.bytes]

/-! ### When it succeeds -/

/-- A step of the writer succeeds exactly under a condition, and then appends the bytes `l`. -/
def Writes (push : ByteArray → Except SaveError ByteArray) (p : Prop) (l : List UInt8) : Prop :=
  ∀ b d, push b = .ok d ↔ p ∧ Bytes.list d = Bytes.list b ++ l

namespace Writes

variable {push next : ByteArray → Except SaveError ByteArray} {p q : Prop} {k l : List UInt8}

theorem bind (hp : Writes push p k) (hq : Writes next q l) :
    Writes (fun b => push b >>= next) (p ∧ q) (k ++ l) := by
  intro b d
  change (push b >>= next) = .ok d ↔ _
  constructor
  · intro h
    cases hc : push b with
    | error e =>
      rw [hc] at h
      cases h
    | ok c =>
      rw [hc] at h
      obtain ⟨h₁, hk⟩ := (hp b c).mp hc
      obtain ⟨h₂, hl⟩ := (hq c d).mp h
      exact ⟨⟨h₁, h₂⟩, by rw [hl, hk, List.append_assoc]⟩
  · rintro ⟨⟨h₁, h₂⟩, hd⟩
    have hc : push b = .ok (Bytes.ofList (Bytes.list b ++ k)) := (hp _ _).mpr ⟨h₁, Bytes.list_ofList _⟩
    rw [hc]
    exact (hq _ _).mpr ⟨h₂, by rw [hd, Bytes.list_ofList, List.append_assoc]⟩

theorem value {f : ByteArray → ByteArray} (hf : ∀ b, Bytes.list (f b) = Bytes.list b ++ l) :
    Writes (fun b => pure (f b)) True l := by
  intro b d
  constructor
  · intro h
    cases h
    exact ⟨trivial, hf b⟩
  · rintro ⟨-, hd⟩
    rw [Bytes.list_inj (hd.trans (hf b).symm)]
    rfl

theorem congr (h : Writes push p l) (hpq : p ↔ q) : Writes push q l := by rwa [← propext hpq]

/-- A step that cannot fail comes first. -/
theorem after {f : ByteArray → ByteArray} (hf : ∀ b, Bytes.list (f b) = Bytes.list b ++ k) (hq : Writes next q l) :
    Writes (fun b => next (f b)) q (k ++ l) := by
  intro b d
  rw [hq, hf, List.append_assoc]

/-- A step that cannot fail comes last. -/
theorem before {f : ByteArray → ByteArray} (hp : Writes push p k)
    (hf : ∀ b, Bytes.list (f b) = Bytes.list b ++ l) :
    Writes (fun b => push b >>= fun d => pure (f d)) p (k ++ l) :=
  (hp.bind (value hf)).congr (iff_of_eq (and_true p))

/-- Each entry of a list is written under its own condition. -/
theorem foldlM {α : Type} {push : ByteArray → α → Except SaveError ByteArray} {p : α → Prop}
    {bytes : α → List UInt8} (h : ∀ a, Writes (push · a) (p a) (bytes a)) (l : List α) :
    Writes (fun b => l.foldlM push b) (∀ a ∈ l, p a) (l.flatMap bytes) := by
  induction l with
  | nil => exact (value fun b => (List.append_nil _).symm).congr (by simp)
  | cons a l ih => exact ((h a).bind ih).congr List.forall_mem_cons.symm

end Writes

/-- The name leaves room for a zero. -/
def ShortName (s : String) : Prop := s.utf8ByteSize < nameSize

instance (s : String) : Decidable (ShortName s) := inferInstanceAs (Decidable (_ < _))

theorem writes_name (s : String) : Writes (pushName · s) (ShortName s) (nameBytes s) := by
  intro b d
  simp only [pushName]
  unfold ShortName
  split
  · rename_i h
    simp only [reduceCtorEq, false_iff, not_and]
    omega
  · rename_i h
    have hlist : Bytes.list (Bytes.pushN (b ++ s.toUTF8) 0 (nameSize - s.utf8ByteSize)) =
        Bytes.list b ++ nameBytes s := by
      simp only [Bytes.list_pushN, Bytes.list_append, List.append_assoc, nameBytes, Text.bytes]
    rw [and_iff_right (Nat.not_le.mp h), ← hlist]
    constructor
    · intro hd
      cases hd
      rfl
    · intro hd
      rw [Bytes.list_inj hd]

theorem writes_object (o : SceneObject) :
    Writes (pushObject · o) (ShortName o.name ∧ ShortName o.className) (objectBytes o) :=
  ((writes_name o.name).after fun b => list_pushWords b (objectWords o)).bind
    ((writes_name o.className).before fun b => list_pushWords b o.vars.toList)

theorem writes_bagNames (bag : List BagEntry) (offset : Nat) :
    Writes (pushBagNames · offset bag) (∀ e ∈ bag, ShortName e.name)
      ((bagNames offset bag).flatMap bagNameBytes) := by
  induction bag generalizing offset with
  | nil => exact (Writes.value fun b => (List.append_nil _).symm).congr (by simp)
  | cons e bag ih =>
    have hname := (writes_name e.name).after fun b => list_pushCount b offset
    exact (hname.bind (ih _)).congr (List.forall_mem_cons (p := fun e : BagEntry => ShortName e.name)).symm

theorem length_bagNames (bag : List BagEntry) (offset : Nat) : (bagNames offset bag).length = bag.length := by
  induction bag generalizing offset with
  | nil => rfl
  | cons e bag ih => rw [bagNames, List.length_cons, List.length_cons, ih]

/-- A bag whose sprites fit, with names that fit. -/
def BagFits (bag : List BagEntry) : Prop := bagSize bag < 0xFFFF ∧ ∀ e ∈ bag, ShortName e.name

theorem writes_bag (s : SaveState) :
    Writes (pushBag · s) (BagFits s.bag) (wordsBytes [s.bagX, s.bagY, s.bagObject] ++ bagBytes s.bag) := by
  have hnames := writes_bagNames s.bag 0
  intro b d
  simp only [pushBag]
  unfold BagFits
  split
  · rename_i h
    simp only [throw, throwThe, MonadExceptOf.throw]
    constructor
    · intro hd
      cases hd
    · rintro ⟨⟨hsize, -⟩, -⟩
      omega
  · rename_i h
    rw [and_iff_right (Nat.not_le.mp h)]
    refine (hnames _ d).trans ?_
    simp only [list_pushCount, list_foldl (fun (b : ByteArray) (e : BagEntry) => b ++ e.data) (Bytes.list ·.data)
      (fun b e => Bytes.list_append b e.data), list_pushWords, List.append_assoc, bagBytes, tableBytes,
      length_bagNames]

/-- The names and the bag fit. -/
def Writable (s : SaveState) : Prop :=
  (∀ o ∈ s.objects, ShortName o.name ∧ ShortName o.className) ∧ BagFits s.bag

instance (s : SaveState) : Decidable s.Writable := inferInstanceAs (Decidable (_ ∧ _ ∧ _))

/-- Exactly the states whose names and bag fit can be written. -/
theorem write_ok_iff (s : SaveState) : s.write = .ok d ↔ Writable s ∧ d = Bytes.ofList (fileBytes s) := by
  have hobjects := (Writes.foldlM writes_object s.objects).after fun b => list_pushCount b s.objects.length
  have hlast (b : ByteArray) : Bytes.list (pushMusic (pushWord b s.bagAction) s) =
      Bytes.list b ++ (wordBytes s.bagAction ++ musicBytes (s.music.getD {})) := by
    rw [list_pushMusic, list_pushWord, List.append_assoc]
  have hbag := ((writes_bag s).after fun b => list_pushTables b s).before hlast
  refine (((hobjects.after fun b => list_pushHeader b s).bind hbag) ByteArray.empty d).trans ?_
  rw [Bytes.list_empty, List.nil_append, Bytes.list_eq_iff]
  simp only [fileBytes, tableBytes, List.append_assoc, Writable]

end Adventure.SaveState
