import Adventure.Proofs.Text.Scanner

/-! What the calls of a tokenizer give and where they leave it, in the bytes of any text and in any order of the calls.
The text is never cut inside of a character, every word and line is a part of the text, and a call that gives one moves
the place on. -/

namespace Adventure

open Text Tokenizer

variable {text : String} {s : List Char} {t : Tokenizer} {w : String}

/-- What a call gives. -/
inductive Answer where
  | text (w : Option String)
  | number (v : Except TokenError Int)
  | pair (v : Except TokenError (Int16 × Int16))

/-- A word, a line, a number or a pair was there. -/
def Answer.Given : Answer → Prop
  | .text w => w.isSome
  | .number v => v.isOk
  | .pair v => v.isOk

def Tokenizer.Call.answer (t : Tokenizer) : Call → Answer
  | .word => .text t.word?.1
  | .line => .text t.line?.1
  | .int => .number t.int.1
  | .arrayIndex => .number t.arrayIndex.1
  | .coord => .pair t.coord.1

namespace Scanner

/-- A call in a text from a place on, and the place behind it. -/
def call (text : String) : Call → Option Nat → Option (Answer × Option Nat)
  | .word, place => (word? text place).map fun (w, place) => (.text w, place)
  | .line, place => (line? text place).map fun (w, place) => (.text w, place)
  | .int, place => (int text place).map fun (v, place) => (.number v, place)
  | .arrayIndex, place => (arrayIndex text place).map fun (v, place) => (.number v, place)
  | .coord, place => (coord text place).map fun (v, place) => (.pair v, place)

/-- The place in a text behind calls from its start on. -/
def run (text : String) (calls : List Call) : Option (Option Nat) :=
  calls.foldlM (fun place c => (call text c place).map (·.2)) (some 0)

theorem call_place (h : t.text <:+ text.toList) (c : Call) :
    call text c (t.place text) = some (c.answer t, (c.run t).place text) := by
  cases c with
  | word => rw [call, word?_place h]; rfl
  | line => rw [call, line?_place h]; rfl
  | int => rw [call, int_place h]; rfl
  | arrayIndex => rw [call, arrayIndex_place h]; rfl
  | coord => rw [call, coord_place h]; rfl

theorem run_place (text : String) (calls : List Call) :
    run text calls = some ((afterCalls text.toList calls).place text) := by
  have hfold (t : Tokenizer) (h : t.text <:+ text.toList) :
      calls.foldlM (fun place c => (call text c place).map (·.2)) (t.place text) =
        some ((calls.foldl Call.run t).place text) := by
    induction calls generalizing t with
    | nil => rfl
    | cons c calls ih =>
      rw [List.foldlM_cons, call_place h c]
      exact ih (c.run t) ((c.suffix t).trans h)
  have hstart : (ofText text.toList).place text = some 0 := place_some (q := []) rfl
  have hrun := hfold (ofText text.toList) (List.suffix_refl _)
  rw [hstart] at hrun
  exact hrun

/-- Behind a character of two bytes. -/
example : run "é (1,2) x" [.word, .coord] = some (some 8) := by decide +kernel

end Scanner

/-! ### Words and lines as parts of the text -/

namespace Tokenizer

/-- A part of what is read, with what is left behind it. -/
def Part (t t' : Tokenizer) (w : String) : Prop := ∃ a b, t.text = a ++ (w.toList ++ b) ∧ t'.text <:+ b

theorem part_cut {a r : List Char} (p : Char → Bool) (h : t.text = a ++ r) :
    Part t (afterDelimiter (r.dropWhile p)) (String.ofList (r.takeWhile p)) := by
  refine ⟨a, r.dropWhile p, ?_, ?_⟩
  · rw [String.toList_ofList, List.takeWhile_append_dropWhile, h]
  · rw [text_afterDelimiter]
    exact List.tail_suffix _

theorem part_word? (h : t.word?.1 = some w) : Part t t.word?.2 w := by
  obtain ⟨_ | s⟩ := t
  · cases h
  have hskip : text ⟨some s⟩ = s.takeWhile isBlank ++ s.dropWhile isBlank := List.takeWhile_append_dropWhile.symm
  cases hd : s.dropWhile isBlank with
  | nil =>
    simp only [word?, hd] at h
    cases h
  | cons c v =>
    rw [hd] at hskip
    by_cases hc : c = '"'
    · subst hc
      rw [word?_quoted hd] at h ⊢
      cases h
      exact part_cut _ (hskip.trans (List.append_cons _ '"' v))
    · rw [word?_plain hd hc] at h ⊢
      cases h
      exact part_cut _ hskip

theorem Part.shorten {t' : Tokenizer} {v : String} (h : Part t t' v) (hw : w.toList <+: v.toList) : Part t t' w := by
  obtain ⟨a, b, htext, hb⟩ := h
  obtain ⟨u, hu⟩ := hw
  refine ⟨a, u ++ b, ?_, hb.trans (List.suffix_append u b)⟩
  rw [htext, ← hu, List.append_assoc]

theorem chomp_isPrefix (l : List Char) : chomp l <+: l := by
  unfold chomp
  split
  · exact List.dropLast_prefix l
  · exact List.prefix_refl l

/-- A line may be shorter than what has been read of it, by the carriage return at its end. -/
theorem part_line? (h : t.line?.1 = some w) : Part t t.line?.2 w := by
  obtain ⟨_ | s⟩ := t
  · cases h
  have hskip : text ⟨some s⟩ = s.takeWhile isBlank ++ s.dropWhile isBlank := List.takeWhile_append_dropWhile.symm
  have hcut := part_cut (· ≠ '\n') hskip
  have hline := List.takeWhile_append_dropWhile (p := (· ≠ '\n')) (l := s.dropWhile isBlank)
  simp only [line?] at h ⊢
  cases hd : (s.dropWhile isBlank).dropWhile (· ≠ '\n') with
  | nil =>
    rw [hd, List.append_nil] at hline
    rw [hd, hline] at hcut
    rw [hd] at h
    cases h
    exact hcut
  | cons c v =>
    rw [hd] at h hcut
    cases h
    refine hcut.shorten ?_
    rw [String.toList_ofList, String.toList_ofList]
    exact chomp_isPrefix _

/-! ### Calls that take something -/

/-- What is exhausted stays exhausted, and nothing is given back. -/
theorem Call.size_le (c : Call) (t : Tokenizer) : (c.run t).size ≤ t.size := by
  cases c with
  | word => exact shrinks_word?.size t
  | line => exact shrinks_line?.size t
  | int => exact shrinks_int.size t
  | arrayIndex => exact shrinks_arrayIndex.size t
  | coord => exact shrinks_coord.size t

theorem size_eq_zero : t.size = 0 ↔ t.rest = none := by
  obtain ⟨_ | s⟩ := t
  · exact ⟨fun _ => rfl, fun _ => rfl⟩
  · exact ⟨nofun, nofun⟩

theorem word?_size_lt (h : t.word?.1.isSome) : t.word?.2.size < t.size := by
  obtain ⟨w, hw⟩ := Option.isSome_iff_exists.mp h
  exact word?_size (Prod.ext hw rfl)

theorem line?_size_lt (h : t.line?.1.isSome) : t.line?.2.size < t.size := by
  obtain ⟨_ | s⟩ := t
  · cases h
  · exact Nat.lt_succ_of_le (line?_size s)

/-- What is not made of the empty word is made of a word that is there. -/
theorem word?_of_ok {f : String → Except TokenError Int} (hempty : (f "").isOk = false)
    (h : (f (t.word?.1.getD "")).isOk) : t.word?.1.isSome := by
  cases hw : t.word?.1 with
  | some w => rfl
  | none =>
    rw [hw, Option.getD_none, hempty] at h
    cases h

theorem int_size_lt (h : t.int.1.isOk) : t.int.2.size < t.size :=
  word?_size_lt (word?_of_ok (f := Scanner.asInt) (by decide) h)

theorem arrayIndex_size_lt (h : t.arrayIndex.1.isOk) : t.arrayIndex.2.size < t.size :=
  word?_size_lt (word?_of_ok (f := Scanner.asIndex) (by decide) h)

theorem coord_size_lt (h : t.coord.1.isOk) : t.coord.2.size < t.size := by
  cases hpair : readCoord (t.text.dropWhile isBlank) with
  | none =>
    rw [Scanner.coord_none hpair] at h
    cases h
  | some p =>
    obtain ⟨x, y, after⟩ := p
    obtain ⟨inner, second, hopen, -, hcomma, -, hclose⟩ := readCoord_eq_some.mp hpair
    have hafter := length_behind hclose
    have hsecond := length_behind hcomma
    have hinner := List.length_dropWhile_le isBlank t.text
    rw [hopen, List.length_cons] at hinner
    rw [Scanner.coord_some hpair]
    obtain ⟨_ | s⟩ := t
    · exact absurd hinner (Nat.not_succ_le_zero _)
    · simp only [size]
      simp only [text, Option.getD_some] at hinner
      omega

theorem Call.part {c : Call} (h : c.answer t = .text (some w)) : Part t (c.run t) w := by
  cases c with
  | word => exact part_word? (Answer.text.inj h)
  | line => exact part_line? (Answer.text.inj h)
  | int => cases h
  | arrayIndex => cases h
  | coord => cases h

/-- A call that gives something takes something. -/
theorem Call.size_lt {c : Call} (h : (c.answer t).Given) : (c.run t).size < t.size := by
  cases c with
  | word => exact word?_size_lt h
  | line => exact line?_size_lt h
  | int => exact int_size_lt h
  | arrayIndex => exact arrayIndex_size_lt h
  | coord => exact coord_size_lt h

end Tokenizer

/-! ### Places -/

/-- From a place to the next one. Both are between characters, and nothing is read behind the end. Words and lines are
parts of the text between the two. Behind whatever is given the place is a later one. -/
structure Advances (text : String) (place : Option Nat) (answer : Answer) (place' : Option Nat) : Prop where
  boundary : ∀ i ∈ place, String.Pos.Raw.IsValid text ⟨i⟩
  boundary' : ∀ j ∈ place', String.Pos.Raw.IsValid text ⟨j⟩
  exhausted : place = none → place' = none
  forward : ∀ i ∈ place, ∀ j ∈ place', i ≤ j
  slice : ∀ w, answer = .text (some w) →
    ∃ j k, Scanner.slice? text j k = some w ∧ (∀ i ∈ place, i ≤ j) ∧ ∀ i ∈ place', k ≤ i
  given : answer.Given → ∃ i ∈ place, ∀ j ∈ place', i < j

namespace Tokenizer

variable {q : List Char} {i : Nat}

theorem place_eq_none : t.place text = none ↔ t.rest = none := Option.map_eq_none_iff

/-- The place is the one behind what has been taken. -/
theorem eq_of_mem_place (h : text.toList = q ++ t.text) (hi : i ∈ t.place text) : i = width q := by
  obtain ⟨_ | s⟩ := t
  · cases hi
  · rw [place_some (r := s) h] at hi
    exact (Option.some.inj hi).symm

theorem size_of_mem_place (hi : i ∈ t.place text) : t.size = t.text.length + 1 := by
  obtain ⟨_ | s⟩ := t
  · cases hi
  · rfl

theorem boundary_place (h : t.text <:+ text.toList) (hi : i ∈ t.place text) : String.Pos.Raw.IsValid text ⟨i⟩ := by
  obtain ⟨q, hq⟩ := h
  rw [eq_of_mem_place hq.symm hi]
  exact Scanner.isValid_width hq.symm

/-- What has been taken behind a call, and what the call has taken. -/
theorem exists_taken (h : text.toList = q ++ t.text) (c : Call) :
    ∃ v, t.text = v ++ (c.run t).text ∧ text.toList = (q ++ v) ++ (c.run t).text := by
  obtain ⟨v, hv⟩ := c.suffix t
  exact ⟨v, hv.symm, by rw [h, List.append_assoc, hv]⟩

theorem advances (h : t.text <:+ text.toList) (c : Call) :
    Advances text (t.place text) (c.answer t) ((c.run t).place text) where
  boundary _ hi := boundary_place h hi
  boundary' _ hj := boundary_place ((c.suffix t).trans h) hj
  exhausted hnone := by
    have hsize := c.size_le t
    rw [size_eq_zero.mpr (place_eq_none.mp hnone), Nat.le_zero] at hsize
    exact place_eq_none.mpr (size_eq_zero.mp hsize)
  forward i hi j hj := by
    obtain ⟨q, hq⟩ := h
    obtain ⟨v, -, hv⟩ := exists_taken hq.symm c
    rw [eq_of_mem_place hq.symm hi, eq_of_mem_place hv hj, width_append]
    exact Nat.le_add_right _ _
  slice w hw := by
    obtain ⟨q, hq⟩ := h
    obtain ⟨a, b, hparts, u, hu⟩ := c.part hw
    have htext : text.toList = q ++ a ++ (w.toList ++ b) := by rw [List.append_assoc, ← hparts, hq]
    have hleft : text.toList = q ++ a ++ w.toList ++ u ++ (c.run t).text := by
      rw [htext, ← hu, List.append_assoc (q ++ a ++ w.toList), List.append_assoc (q ++ a)]
    have hslice := Scanner.slice?_width htext
    rw [String.ofList_toList] at hslice
    refine ⟨_, _, hslice, fun i hi => ?_, fun j hj => ?_⟩
    · rw [eq_of_mem_place hq.symm hi, width_append]
      exact Nat.le_add_right _ _
    · rw [eq_of_mem_place hleft hj, width_append _ u]
      exact Nat.le_add_right _ _
  given hgiven := by
    obtain ⟨q, hq⟩ := h
    obtain ⟨v, htaken, hv⟩ := exists_taken hq.symm c
    have hlt := c.size_lt hgiven
    obtain ⟨_ | s⟩ := t
    · exact absurd hlt (Nat.not_lt_zero _)
    refine ⟨width q, place_some hq.symm, fun j hj => ?_⟩
    have hlength : s.length = v.length + (c.run ⟨some s⟩).text.length := by
      rw [← List.length_append, ← htaken]
      rfl
    rw [size_of_mem_place hj] at hlt
    have hwidth := length_le_width v
    rw [eq_of_mem_place hv hj, width_append]
    simp only [size] at hlt
    omega

end Tokenizer

end Adventure
