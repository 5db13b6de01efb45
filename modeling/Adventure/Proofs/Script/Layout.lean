import Adventure.Script.Operator

/-! The layout of operands in a script, described apart from the interpreter. How many
bytes an operand takes is told by the bytes of the script alone. A step reads operands
of given kinds if it leaves the script behind them whenever it gives a value; steps in
a row read their operands in a row. -/

namespace Adventure

namespace Operand

/-- The kinds of operands. A change is a code and an argument, a fraction three words. -/
inductive Kind where
  | word | change | fraction | object | text | test | mode
  deriving DecidableEq, Repr

/-- The word at a place of a script; zero where there is none. -/
def wordAt (data : ByteArray) (i : Nat) : Int16 := (Bytes.le16s? data i).getD 0

/-- The number of bytes of an operand at a place. Names have their length in front; a test
can have a list of ranges behind the code -1, and mode 2 a second word. -/
def Kind.size (data : ByteArray) (i : Nat) : Kind → Nat
  | word => 2
  | change => 4
  | fraction => 6
  | object => 2 + (wordAt data i).toInt.toNat
  | text => 2 + (wordAt data i).toInt.toNat
  | test => 4 + if wordAt data i = -1 then 4 * (wordAt data (i + 2)).toInt.toNat else 0
  | mode => 2 + if wordAt data i = 2 then 2 else 0

/-- Where operands of the given kinds end. -/
def span (data : ByteArray) (i : Nat) : List Kind → Nat
  | [] => i
  | k :: l => span data (i + k.size data i) l

/-- The script behind operands of the given kinds. -/
def past (l : List Kind) (s : Script) : Script := { s with offset := span s.data s.offset l }

theorem span_append (data : ByteArray) (i : Nat) (k l : List Kind) :
    span data i (k ++ l) = span data (span data i k) l := by
  induction k generalizing i with
  | nil => rfl
  | cons x k ih => exact ih _

theorem le_span (data : ByteArray) (i : Nat) (l : List Kind) : i ≤ span data i l := by
  induction l generalizing i with
  | nil => exact Nat.le_refl i
  | cons k l ih => exact Nat.le_trans (Nat.le_add_right i _) (ih _)

theorem past_append (k l : List Kind) (s : Script) : past (k ++ l) s = past l (past k s) := by
  simp only [past, span_append]

variable {α β : Type} {good : α → Prop}

/-- Whenever a step gives a good value, it has read operands of the given kinds. -/
def ReadsIf (good : α → Prop) (m : Operand α) (l : List Kind) : Prop :=
  ∀ s a t, m s = .ok (a, t) → good a → t = past l s

abbrev Reads (m : Operand α) (l : List Kind) : Prop := ReadsIf (fun _ => True) m l

/-- A test that holds has read operands of the given kinds. -/
abbrev Accepts (m : Operand Bool) (l : List Kind) : Prop := ReadsIf (· = true) m l

theorem bind_ok {m : Operand β} {f : β → Operand α} {s t : Script} {a : α}
    (h : (m >>= f) s = .ok (a, t)) : ∃ b u, m s = .ok (b, u) ∧ f b u = .ok (a, t) := by
  change (m s).bind (fun p => f p.1 p.2) = .ok (a, t) at h
  cases hm : m s with
  | error e => rw [hm] at h; cases h
  | ok p => rw [hm] at h; exact ⟨p.1, p.2, rfl, h⟩

namespace ReadsIf

theorem bind {m : Operand β} {f : β → Operand α} {k l : List Kind} (hm : Reads m k)
    (hf : ∀ b, ReadsIf good (f b) l) : ReadsIf good (m >>= f) (k ++ l) := by
  intro s a t h ha
  obtain ⟨b, u, hu, ht⟩ := bind_ok h
  rw [past_append, ← hm s b u hu trivial]
  exact hf b u a t ht ha

theorem value (a : α) : ReadsIf good (pure a) [] := by
  rintro s b t h -
  cases h
  rfl

/-- What follows reads nothing. -/
theorem bind_nil {m : Operand β} {f : β → Operand α} {l : List Kind} (hm : Reads m l)
    (hf : ∀ b, ReadsIf good (f b) []) : ReadsIf good (m >>= f) l := by
  have h := hm.bind hf
  rwa [List.append_nil] at h

/-- A value that is not good says nothing about what was read. -/
theorem bad {a : α} (ha : ¬good a) (l : List Kind) : ReadsIf good (pure a) l := by
  intro s b t h hb
  cases h
  exact absurd hb ha

theorem fault (e : GameError) (l : List Kind) : ReadsIf good (throw e : Operand α) l := by
  intro s a t h
  cases h

theorem lift (e : Except GameError α) : ReadsIf good (liftM e : Operand α) [] := by
  intro s a t h _
  cases e with
  | error x => cases h
  | ok b => cases h; rfl

theorem weaken {m : Operand α} {l : List Kind} (hm : Reads m l) : ReadsIf good m l :=
  fun s a t h _ => hm s a t h trivial

end ReadsIf

open ReadsIf

/-! ### Single operands -/

theorem word_ok {s t : Script} {w : Int16} (h : word s = .ok (w, t)) :
    w = wordAt s.data s.offset ∧ t = past [.word] s := by
  unfold word at h
  split at h
  · rename_i v hv
    cases h
    exact ⟨by rw [wordAt, hv]; rfl, rfl⟩
  · cases h

theorem int_ok {s t : Script} {n : Int} (h : int s = .ok (n, t)) :
    n = (wordAt s.data s.offset).toInt ∧ t = past [.word] s := by
  obtain ⟨w, u, hw, hn⟩ := bind_ok h
  cases hn
  exact ⟨congrArg Int16.toInt (word_ok hw).1, (word_ok hw).2⟩

theorem reads_word : Reads word [.word] := fun _ _ _ h _ => (word_ok h).2

theorem reads_int : Reads int [.word] := fun _ _ _ h _ => (int_ok h).2

theorem reads_offset : Reads offset [] := by
  rintro s a t h -
  cases h
  rfl

/-- Skipping leaves the script where operands of that size end. -/
theorem reads_skip {n : Nat} {l : List Kind} (hl : ∀ data i, span data i l = i + n) : Reads (skip n) l := by
  rintro s a t h -
  cases h
  simp only [past, hl]

theorem reads_div (a b : Int) : Reads (div a b) [] := by
  unfold div
  split
  · exact reads_offset.bind fun _ => fault _ _
  · exact value _

theorem reads_rem (a b : Int) : Reads (rem a b) [] := by
  unfold rem
  split
  · exact reads_offset.bind fun _ => fault _ _
  · exact value _

theorem reads_change (value : Int16) : Reads (change value) [.change] :=
  reads_offset.bind fun _ => reads_word.bind fun _ => reads_word.bind fun _ => lift _

theorem reads_scaled (size : Int) : Reads (scaled size) [.fraction] :=
  reads_int.bind fun _ => reads_int.bind fun _ => reads_int.bind fun _ =>
    (reads_div _ _).bind fun _ => value _

theorem reads_scaledPair (size : Int) : Reads (scaledPair size) [.fraction, .fraction] :=
  (reads_scaled size).bind fun _ => (reads_scaled size).bind fun _ => value _

theorem reads_index (t : Table) (size : Nat) : Reads (index t size) [.word] :=
  reads_int.bind fun _ => lift _

/-- An object takes its length and its name, whether or not there is an object of that name. -/
theorem reads_object (t : SceneTables) : Reads (object t) [.object] := by
  rintro s ref u h -
  obtain ⟨start, s₁, h₁, h⟩ := bind_ok h
  cases h₁
  obtain ⟨n, s₂, h₂, h⟩ := bind_ok h
  obtain ⟨hn, rfl⟩ := int_ok h₂
  -- the codes of nobody and of the running object have no name behind them
  have hshort : n ≤ 0 → past [.word] s = past [.object] s := by
    intro hn0
    simp only [past, span, Kind.size, ← hn, Int.toNat_of_nonpos hn0, Nat.add_zero]
  split at h
  · cases h; exact hshort (by omega)
  split at h
  · cases h; exact hshort (by omega)
  split at h
  · cases h
  obtain ⟨v, s₃, h₃, h⟩ := bind_ok h
  cases h₃
  obtain ⟨x, s₄, h₄, h⟩ := bind_ok h
  cases h₄
  cases h
  simp only [past, span, Kind.size, ← hn, Nat.add_assoc]

theorem reads_string : Reads string [.text] := by
  rintro s a u h -
  obtain ⟨start, s₁, h₁, h⟩ := bind_ok h
  cases h₁
  obtain ⟨n, s₂, h₂, h⟩ := bind_ok h
  obtain ⟨hn, rfl⟩ := int_ok h₂
  split at h
  · cases h
  obtain ⟨v, s₃, h₃, h⟩ := bind_ok h
  cases h₃
  dsimp only at h
  split at h
  · cases h
  split at h
  · cases h
  obtain ⟨x, s₄, h₄, h⟩ := bind_ok h
  cases h₄
  cases h
  simp only [past, span, Kind.size, ← hn, Nat.add_assoc]

/-- All ranges of a test are read, also behind one that holds. -/
theorem inRanges_ok (v : Int16) (n : Nat) {s t : Script} {b : Bool} (h : inRanges v n s = .ok (b, t)) :
    t = { s with offset := s.offset + 4 * n } := by
  induction n generalizing s b with
  | zero => cases h; rfl
  | succ n ih =>
    obtain ⟨low, s₁, h₁, h⟩ := bind_ok h
    cases (word_ok h₁).2
    obtain ⟨high, s₂, h₂, h⟩ := bind_ok h
    cases (word_ok h₂).2
    obtain ⟨rest, s₃, h₃, h⟩ := bind_ok h
    cases h
    rw [ih h₃]
    simp only [past, span, Kind.size, Script.mk.injEq, true_and]
    omega

theorem reads_test (v : Int16) : Reads (test v) [.test] := by
  rintro s b t h -
  obtain ⟨code, s₁, h₁, h⟩ := bind_ok h
  obtain ⟨hcode, rfl⟩ := word_ok h₁
  split at h
  · rename_i hranges
    obtain ⟨n, s₂, h₂, h⟩ := bind_ok h
    obtain ⟨hn, rfl⟩ := int_ok h₂
    have hend := inRanges_ok v _ h
    rw [hend, hn]
    simp only [past, span, Kind.size, ← hcode, hranges, if_true, Script.mk.injEq, true_and]
    omega
  · rename_i hsingle
    obtain ⟨x, s₂, h₂, h⟩ := bind_ok h
    cases (word_ok h₂).2
    have hend := (lift (comparison code v x) : Reads _ []) _ b t h trivial
    rw [hend]
    simp only [past, span, Kind.size, ← hcode, hsingle, if_false]

/-! ### Places -/

variable (t : SceneTables) (o : SceneObject)

theorem reads_point (a : Axis) : Reads (point t o a) [.fraction] :=
  (lift _).bind fun _ => (reads_scaled _).bind fun _ => value _

theorem reads_corners : Reads (corners t o) [.fraction, .fraction, .fraction, .fraction] :=
  (reads_point t o .x).bind fun _ => (reads_point t o .x).bind fun _ =>
    (reads_point t o .y).bind fun _ => (reads_point t o .y).bind fun _ => value _

theorem reads_spans (a : Axis) (m : Moment) : Reads (spans t o a m) [.fraction, .fraction, .word] :=
  (lift _).bind fun _ => (reads_scaled _).bind fun _ => (reads_scaled _).bind fun _ =>
    reads_int.bind fun _ => value _

theorem reads_snap (v low step : Int16) : Reads (snap v low step) [] :=
  (reads_div _ _).bind fun _ => (reads_rem _ _).bind fun _ => value _

theorem reads_wrapped (v period : Int) : Reads (wrapped v period) [] :=
  (reads_rem _ _).bind fun _ => value _

theorem reads_pastGrid (a : Axis) (shift period start : Int) :
    Reads (pastGrid t o a shift period start) [] :=
  (lift _).bind fun _ => (lift _).bind fun _ => (lift _).bind fun _ => reads_wrapped _ _

theorem reads_gridOf (size : Int) : Reads (gridOf size) [.fraction, .fraction] :=
  (reads_scaledPair size).bind fun _ => value _

theorem reads_rowGrid (rows : Rows) (size : Int) :
    Reads (rowGrid rows size) (if rows = .grid then [.fraction, .fraction] else []) := by
  unfold rowGrid
  split
  · exact reads_gridOf size
  · exact value _

theorem reads_frameNumber (withFrame : Bool) :
    Reads (frameNumber withFrame) (if withFrame then [.word] else []) := by
  cases withFrame with
  | true => exact reads_int
  | false => exact value _

theorem reads_rowShift (rows : Rows) (last next : FrameHeader) (low step : Int16) :
    Reads (rowShift rows last next low step) (if rows = .given then [.word, .word] else []) := by
  cases rows with
  | anchor => exact value _
  | grid => exact reads_snap _ _ _
  | given => exact (reads_word.bind fun _ => value _).bind fun _ => reads_int.bind fun _ => value _

/-- The operands of a frame change on a grid: the grid of the columns and maybe of the
rows, the motion and maybe the frame, and maybe a place. -/
def gridKinds (withFrame : Bool) (rows : Rows) : List Kind :=
  [.fraction, .fraction] ++ ((if rows = .grid then [.fraction, .fraction] else []) ++
    (.word :: ((if withFrame then [.word] else []) ++ if rows = .given then [.word, .word] else [])))

/-- A frame change that finds the object drawn reads all of its operands. -/
theorem reads_gridFrame (other : Option Nat) (withFrame : Bool) (rows : Rows) :
    ReadsIf (fun r => r.isSome = true) (gridFrame t o other withFrame rows) (gridKinds withFrame rows) := by
  unfold gridFrame
  refine (lift _).bind fun last => ?_
  split
  · exact bad (by simp) _
  refine (reads_gridOf _).bind fun ⟨left, stepX⟩ => (reads_rowGrid _ _).bind fun ⟨low, stepY⟩ => ?_
  refine (lift _).bind fun base => reads_int.bind fun _ => (lift _).bind fun _ => ?_
  refine (reads_frameNumber _).bind fun _ => (lift _).bind fun next => (reads_snap _ _ _).bind fun _ => ?_
  exact (reads_rowShift _ _ _ _ _).bind_nil fun _ => value _

/-- A frame change that finds the object not drawn leaves its operands. -/
theorem gridFrame_none {other : Option Nat} {withFrame : Bool} {rows : Rows} {s u : Script}
    (h : gridFrame t o other withFrame rows s = .ok (none, u)) : u = s := by
  unfold gridFrame at h
  obtain ⟨last, s₁, hlast, h⟩ := bind_ok h
  split at h
  · cases h
    exact (lift _ : Reads _ []) _ _ _ hlast trivial
  -- otherwise the step ends with an object
  obtain ⟨p, s₂, -, h⟩ := bind_ok h
  obtain ⟨q, s₃, -, h⟩ := bind_ok h
  obtain ⟨base, s₄, -, h⟩ := bind_ok h
  obtain ⟨n, s₅, -, h⟩ := bind_ok h
  obtain ⟨m, s₆, -, h⟩ := bind_ok h
  obtain ⟨f, s₇, -, h⟩ := bind_ok h
  obtain ⟨next, s₈, -, h⟩ := bind_ok h
  obtain ⟨dx, s₉, -, h⟩ := bind_ok h
  obtain ⟨dy, s₁₀, -, h⟩ := bind_ok h
  cases h

end Operand

namespace Interpreter

open Operand (Kind past past_append)

variable {α β : Type}

/-- Whenever a step of the interpreter gives a value, it has read operands of the given
kinds, whatever the game is. -/
def Reads (m : Interpreter α) (l : List Kind) : Prop :=
  ∀ s g a t h, m s g = .ok (a, t) h → t = past l s

theorem bind_ok {m : Interpreter β} {f : β → Interpreter α} {s t : Script} {g h : Game} {a : α}
    (hs : (m >>= f) s g = .ok (a, t) h) :
    ∃ b u k, m s g = .ok (b, u) k ∧ f b u k = .ok (a, t) h := by
  change EStateM.bind (m s) (fun p => f p.1 p.2) g = .ok (a, t) h at hs
  unfold EStateM.bind at hs
  split at hs
  · rename_i p k hm
    exact ⟨p.1, p.2, k, hm, hs⟩
  · cases hs

namespace Reads

theorem bind {m : Interpreter β} {f : β → Interpreter α} {k l : List Kind} (hm : Reads m k)
    (hf : ∀ b, Reads (f b) l) : Reads (m >>= f) (k ++ l) := by
  intro s g a t h hs
  obtain ⟨b, u, g', hu, ht⟩ := bind_ok hs
  rw [past_append, ← hm s g b u g' hu]
  exact hf b u g' a t h ht

/-- What follows reads nothing. -/
theorem bind_nil {m : Interpreter β} {f : β → Interpreter α} {l : List Kind} (hm : Reads m l)
    (hf : ∀ b, Reads (f b) []) : Reads (m >>= f) l := by
  have h := hm.bind hf
  rwa [List.append_nil] at h

theorem value (a : α) : Reads (pure a) [] := by
  intro s g b t h hs
  cases hs
  rfl

/-- A step of the game alone reads nothing. -/
theorem lift (m : Game.M α) : Reads (liftM m) [] := by
  intro s g a t h hs
  change EStateM.bind m (fun b => pure (b, s)) g = .ok (a, t) h at hs
  unfold EStateM.bind at hs
  split at hs
  · cases hs; rfl
  · cases hs

theorem ofExcept (e : Except GameError α) : Reads (MonadExcept.ofExcept e) [] := by
  intro s g a t h hs
  cases e with
  | error x => cases hs
  | ok b => cases hs; rfl

theorem fault (e : GameError) (l : List Kind) : Reads (throw e : Interpreter α) l := by
  intro s g a t h hs
  cases hs

theorem object (i : Nat) (f : SceneObject → SceneObject) : Reads (onObject i f) [] := lift _

theorem tables (f : SceneTables → SceneTables) : Reads (onTables f) [] := lift _

theorem ite {p : Prop} [Decidable p] {m n : Interpreter α} {l : List Kind} (hm : Reads m l) (hn : Reads n l) :
    Reads (if p then m else n) l := by
  split
  · exact hm
  · exact hn

end Reads

theorem read_ok {m : Operand α} {s t : Script} {g h : Game} {a : α} (hs : read m s g = .ok (a, t) h) :
    m s = .ok (a, t) ∧ h = g := by
  unfold read at hs
  cases hm : m s with
  | error e => rw [hm] at hs; cases hs
  | ok r => rw [hm] at hs; cases hs; exact ⟨rfl, rfl⟩

theorem reads_read {m : Operand α} {l : List Kind} (hm : Operand.Reads m l) : Reads (read m) l :=
  fun s _ a t _ hs => hm s a t (read_ok hs).1 trivial

theorem reads_game : Reads game [] := .lift _

end Interpreter

end Adventure
