import Adventure.Text.Tokenizer
import Mathlib.Data.List.TakeWhile

/-! What a step of the tokenizer gives is told by the characters that it takes. If it leaves
at least the text `r`, then it went on in front of `r` only, and would have done the same with
any other text in the place of `r`. -/

namespace Adventure

namespace Text

/-! ### The characters up to the first that fails a test -/

section

variable {p : Char → Bool} {q r u : List Char} {c : Char}

/-- If `r` is left then the first character that fails the test stands in front of it. -/
theorem dropWhile_of_append (h : (q ++ r).dropWhile p = c :: u) (hr : r.length ≤ u.length) :
    ∃ q', u = q' ++ r ∧ q.dropWhile p = c :: q' := by
  rw [List.dropWhile_append] at h
  split at h
  · have hle := List.length_dropWhile_le p r
    rw [h, List.length_cons] at hle
    omega
  · rename_i hne
    cases hq : q.dropWhile p with
    | nil => rw [hq] at hne; exact absurd rfl hne
    | cons d q' =>
      rw [hq, List.cons_append, List.cons.injEq] at h
      exact ⟨q', h.2.symm, by rw [h.1]⟩

theorem dropWhile_append_cons (h : q.dropWhile p = c :: u) (r : List Char) :
    (q ++ r).dropWhile p = c :: (u ++ r) := by
  rw [List.dropWhile_append, h]
  rfl

theorem takeWhile_append_cons (h : q.dropWhile p = c :: u) (r : List Char) :
    (q ++ r).takeWhile p = q.takeWhile p := by
  have hsplit := congrArg List.length (List.takeWhile_append_dropWhile (p := p) (l := q))
  rw [h, List.length_append, List.length_cons] at hsplit
  rw [List.takeWhile_append, if_neg (by omega)]

theorem head_dropWhile (h : q.dropWhile p = c :: u) : p c = false := by
  have := List.head_dropWhile_not p (l := q) (by simp [h])
  simpa [h] using this

end

/-! ### Numbers in front of a delimiter -/

/-- A character that no number goes on with. -/
structure EndsNumber (c : Char) : Prop where
  digit : ∀ base ≤ 16, digit? base c = none
  blank : isBlank c = false
  sign : c ≠ '-' ∧ c ≠ '+'
  zero : c ≠ '0'
  hex : c ≠ 'x' ∧ c ≠ 'X'

namespace EndsNumber

variable {c : Char} (hc : EndsNumber c)
include hc

theorem readSign_append (s r : List Char) :
    readSign (s ++ c :: r) = ((readSign s).1, (readSign s).2 ++ c :: r) := by
  cases s with
  | nil =>
    have h := hc.sign
    simp only [List.nil_append, readSign]
    split <;> simp_all
  | cons d s =>
    simp only [List.cons_append, readSign]
    split <;> simp_all

theorem readBase_append (s r : List Char) :
    readBase (s ++ c :: r) = ((readBase s).1, (readBase s).2 ++ c :: r) := by
  have hz := hc.zero
  have hx := hc.hex
  have hd := hc.digit 16 (Nat.le_refl _)
  match s with
  | [] => simp only [List.nil_append, readBase]; split <;> simp_all
  | [d] => by_cases h : d = '0' <;> cases r <;> simp [readBase, h, hx]
  | [d, x] => by_cases h : d = '0' <;> simp [readBase, h, hd]
  | d :: x :: y :: s =>
    by_cases h : d = '0'
    · subst h
      simp only [List.cons_append, readBase]
      split <;> rfl
    · simp [readBase, h]

theorem readDigits_append {base : Nat} (hb : base ≤ 16) (s r : List Char) (value count : Nat) :
    readDigits base value count (s ++ c :: r) = readDigits base value count s := by
  induction s generalizing value count with
  | nil => simp only [List.nil_append, readDigits, hc.digit base hb]
  | cons d s ih =>
    simp only [List.cons_append, readDigits]
    split
    · exact ih _ _
    · rfl

omit hc in
theorem readBase_le (s : List Char) : (readBase s).1 ≤ 16 := by
  unfold readBase
  split
  · split <;> simp
  · simp
  · simp

theorem dropBlanks_append (s r : List Char) :
    (s ++ c :: r).dropWhile isBlank = s.dropWhile isBlank ++ c :: r := by
  rw [List.dropWhile_append]
  split
  · rename_i h
    rw [List.isEmpty_iff.mp h, List.dropWhile_cons_of_neg (by simp [hc.blank])]
    rfl
  · rfl

/-- Nothing behind the character matters for the number. -/
theorem readLong_append (s r : List Char) :
    (readLong (s ++ c :: r)).map (·.1) = (readLong s).map (·.1) := by
  simp only [readLong, hc.dropBlanks_append, hc.readSign_append, hc.readBase_append,
    hc.readDigits_append (readBase_le _)]
  split <;> rfl

/-- A number is told by the characters up to the delimiter. -/
theorem readLong_local {q q' : List Char} (h : q.dropWhile (· ≠ c) = c :: q') (r : List Char) :
    (readLong (q ++ r)).map (·.1) = (readLong (q.takeWhile (· ≠ c))).map (·.1) := by
  have hq : q ++ r = q.takeWhile (· ≠ c) ++ c :: (q' ++ r) := by
    rw [← List.cons_append, ← h, ← List.append_assoc, List.takeWhile_append_dropWhile]
  rw [hq, hc.readLong_append]

end EndsNumber

theorem endsNumber_comma : EndsNumber ',' := by constructor <;> decide

theorem endsNumber_bracket : EndsNumber ')' := by constructor <;> decide

end Text

namespace Tokenizer

open Text

/-! ### Steps that go on in a text -/

/-- How much is left: the characters, and the end of the text. -/
def size (t : Tokenizer) : Nat :=
  match t.rest with
  | none => 0
  | some s => s.length + 1

variable {α : Type}

/-- The characters that are left. -/
def text (t : Tokenizer) : List Char := t.rest.getD []

/-- A step never gives characters back, and what it leaves is an end of what there was. -/
structure Shrinks (f : Tokenizer → α × Tokenizer) : Prop where
  size : ∀ t, (f t).2.size ≤ t.size
  text : ∀ t, (f t).2.text <:+ t.text

/-- A step with a good result that leaves at least the text `r` takes its characters from the
text in front of `r`, and would do so in front of any other text. -/
def Local (good : α → Prop) (f : Tokenizer → α × Tokenizer) : Prop :=
  ∀ ⦃q r u : List Char⦄ ⦃a : α⦄, good a → f ⟨some (q ++ r)⟩ = (a, ⟨some u⟩) → r.length ≤ u.length →
    ∃ q', u = q' ++ r ∧ ∀ r', f ⟨some (q ++ r')⟩ = (a, ⟨some (q' ++ r')⟩)

theorem size_afterDelimiter (l : List Char) : (afterDelimiter l).size = l.length := by
  cases l <;> rfl

theorem text_afterDelimiter (l : List Char) : (afterDelimiter l).text = l.tail := by
  cases l <;> rfl

/-- The text behind the characters up to the first that fails a test. -/
theorem text_cut (p : Char → Bool) (l : List Char) : (afterDelimiter (l.dropWhile p)).text <:+ l := by
  rw [text_afterDelimiter]
  exact (List.tail_suffix _).trans (List.dropWhile_suffix p)

/-- A word takes at least a character. -/
theorem word?_size {t t' : Tokenizer} {w : String} (h : t.word? = (some w, t')) : t'.size < t.size := by
  obtain ⟨_ | s⟩ := t
  · cases h
  have hle := List.length_dropWhile_le isBlank s
  simp only [word?] at h
  split at h
  · cases h
  · rename_i r heq
    cases h
    have := List.length_dropWhile_le (· ≠ '"') r
    rw [heq, List.length_cons] at hle
    rw [size_afterDelimiter]
    simp only [size]
    omega
  · cases h
    have := List.length_dropWhile_le (fun c => !isBlank c) (s.dropWhile isBlank)
    rw [size_afterDelimiter]
    simp only [size]
    omega

/-- What is left behind a word is an end of the text, and its characters are those of the text. -/
theorem word?_text (t : Tokenizer) : t.word?.2.text <:+ t.text ∧ ∀ w ∈ t.word?.1, ∀ c ∈ w.toList, c ∈ t.text := by
  obtain ⟨_ | s⟩ := t
  · exact ⟨List.suffix_refl _, fun _ h => nomatch h⟩
  have hend : s.dropWhile isBlank <:+ s := List.dropWhile_suffix isBlank
  simp only [word?]
  split
  · exact ⟨List.nil_suffix, fun _ h => nomatch h⟩
  · rename_i r heq
    have hr : r <:+ s := (List.suffix_cons '"' r).trans (heq ▸ hend)
    refine ⟨(text_cut _ r).trans hr, ?_⟩
    rintro w ⟨rfl⟩ c hc
    rw [String.toList_ofList] at hc
    exact hr.subset ((List.takeWhile_subset _) hc)
  · refine ⟨(text_cut _ _).trans hend, ?_⟩
    rintro w ⟨rfl⟩ c hc
    rw [String.toList_ofList] at hc
    exact hend.subset ((List.takeWhile_subset _) hc)

theorem shrinks_word? : Shrinks word? where
  size t := by
    cases h : t.word? with
    | mk w t' =>
      cases w with
      | some w => exact Nat.le_of_lt (word?_size h)
      | none =>
        obtain ⟨_ | s⟩ := t
        · cases h; exact Nat.le_refl _
        · simp only [word?] at h
          split at h
          · cases h; exact Nat.zero_le _
          · cases h
          · cases h
  text t := (word?_text t).1

theorem shrinks_line? : Shrinks line? where
  size := by
    rintro ⟨_ | s⟩
    · exact Nat.le_refl _
    have hle := List.length_dropWhile_le isBlank s
    have hle' := List.length_dropWhile_le (· ≠ '\n') (s.dropWhile isBlank)
    simp only [line?]
    split
    · exact Nat.zero_le _
    · rename_i after heq
      rw [heq, List.length_cons] at hle'
      simp only [size]
      omega
  text := by
    rintro ⟨_ | s⟩
    · exact List.suffix_refl _
    simp only [line?]
    split
    · exact List.nil_suffix
    · rename_i c after heq
      have hafter : after <:+ s.dropWhile isBlank :=
        (List.suffix_cons c after).trans (heq ▸ List.dropWhile_suffix (· ≠ '\n'))
      exact hafter.trans (List.dropWhile_suffix isBlank)

/-- The text behind a delimiter, and what stands in front of it. -/
theorem afterDelimiter_local {p : Char → Bool} {q r u : List Char}
    (h : afterDelimiter ((q ++ r).dropWhile p) = ⟨some u⟩) (hr : r.length ≤ u.length) :
    ∃ c q', u = q' ++ r ∧ q.dropWhile p = c :: q' := by
  cases hd : (q ++ r).dropWhile p with
  | nil => rw [hd] at h; cases h
  | cons c v =>
    rw [hd] at h
    cases h
    exact ⟨c, dropWhile_of_append hd hr⟩

/-- The characters up to the first that fails a test, with the text behind that one. -/
theorem cut_local {p : Char → Bool} {q r u : List Char}
    (h : afterDelimiter ((q ++ r).dropWhile p) = ⟨some u⟩) (hr : r.length ≤ u.length) :
    ∃ q', u = q' ++ r ∧ ∀ r', (q ++ r').takeWhile p = (q ++ r).takeWhile p ∧
      afterDelimiter ((q ++ r').dropWhile p) = ⟨some (q' ++ r')⟩ := by
  obtain ⟨c, q', hu, hq⟩ := afterDelimiter_local h hr
  refine ⟨q', hu, fun r' => ⟨?_, ?_⟩⟩
  · rw [takeWhile_append_cons hq, takeWhile_append_cons hq]
  · rw [dropWhile_append_cons hq]
    rfl

theorem word?_quoted {s v : List Char} (h : s.dropWhile isBlank = '"' :: v) :
    word? ⟨some s⟩ = (some (String.ofList (v.takeWhile (· ≠ '"'))), afterDelimiter (v.dropWhile (· ≠ '"'))) := by
  simp only [word?, h]

theorem word?_plain {s v : List Char} {c : Char} (h : s.dropWhile isBlank = c :: v) (hc : c ≠ '"') :
    word? ⟨some s⟩ =
      (some (String.ofList ((c :: v).takeWhile fun d => !isBlank d)),
        afterDelimiter ((c :: v).dropWhile fun d => !isBlank d)) := by
  simp only [word?, h]
  split
  · contradiction
  · rename_i heq
    exact absurd (List.cons.inj heq).1 hc
  · rfl

theorem length_lt_of_afterDelimiter {p : Char → Bool} {l u : List Char}
    (h : afterDelimiter (l.dropWhile p) = ⟨some u⟩) : u.length < l.length := by
  have hle := List.length_dropWhile_le p l
  have hsize := size_afterDelimiter (l.dropWhile p)
  rw [h] at hsize
  simp only [size] at hsize
  omega

theorem local_word? : Local (fun _ => True) word? := by
  intro q r u w _ h hr
  cases hd : (q ++ r).dropWhile isBlank with
  | nil =>
    simp only [word?, hd] at h
    cases h
  | cons c v =>
    by_cases hc : c = '"'
    · subst hc
      rw [word?_quoted hd] at h
      obtain ⟨hw, hu⟩ := Prod.mk.inj h
      have hlt := length_lt_of_afterDelimiter hu
      obtain ⟨v', rfl, hv⟩ := dropWhile_of_append hd (by omega)
      obtain ⟨q', rfl, hq'⟩ := cut_local hu hr
      refine ⟨q', rfl, fun r' => ?_⟩
      rw [word?_quoted (dropWhile_append_cons hv r'), (hq' r').1, (hq' r').2, hw]
    · rw [word?_plain hd hc] at h
      obtain ⟨hw, hu⟩ := Prod.mk.inj h
      have hlt := length_lt_of_afterDelimiter hu
      rw [List.length_cons] at hlt
      obtain ⟨v', rfl, hv⟩ := dropWhile_of_append hd (by omega)
      obtain ⟨q', rfl, hq'⟩ := cut_local (q := c :: v') hu hr
      refine ⟨q', rfl, fun r' => ?_⟩
      rw [word?_plain (dropWhile_append_cons hv r') hc]
      exact Prod.ext ((congrArg (some <| String.ofList ·) (hq' r').1).trans hw) (hq' r').2

theorem local_line? : Local (fun _ => True) line? := by
  intro q r u w _ h hr
  simp only [line?] at h
  cases hd : ((q ++ r).dropWhile isBlank).dropWhile (· ≠ '\n') with
  | nil => rw [hd] at h; cases h
  | cons c after =>
    rw [hd] at h
    cases h
    have hle := List.length_dropWhile_le (· ≠ '\n') ((q ++ r).dropWhile isBlank)
    rw [hd, List.length_cons] at hle
    cases hb : (q ++ r).dropWhile isBlank with
    | nil => rw [hb] at hle; simp at hle
    | cons b v =>
      rw [hb, List.length_cons] at hle
      rw [hb] at hd
      obtain ⟨v', rfl, hv⟩ := dropWhile_of_append hb (by omega)
      obtain ⟨q', rfl, hq⟩ := dropWhile_of_append (q := b :: v') hd hr
      refine ⟨q', rfl, fun r' => ?_⟩
      have ht (r : List Char) : (b :: (v' ++ r)).takeWhile (· ≠ '\n') = (b :: v').takeWhile (· ≠ '\n') :=
        takeWhile_append_cons hq r
      have hdrop : (b :: (v' ++ r')).dropWhile (· ≠ '\n') = c :: (q' ++ r') := dropWhile_append_cons hq r'
      simp only [line?, dropWhile_append_cons hv r', hdrop, ht]

/-! ### Words that stand for something -/

/-- A step that takes a word, and gives what is to be made of it. -/
theorem local_of_word {good : α → Prop} {f : Tokenizer → α × Tokenizer} (hrest : ∀ t, (f t).2 = t.word?.2)
    (hvalue : ∀ t t', t.word?.1 = t'.word?.1 → (f t).1 = (f t').1) : Local good f := by
  intro q r u a _ h hr
  obtain ⟨ha, hu⟩ := Prod.ext_iff.mp h
  obtain ⟨q', hq, hq'⟩ := local_word? trivial (Prod.ext rfl ((hrest _).symm.trans hu)) hr
  refine ⟨q', hq, fun r' => ?_⟩
  have hw := Prod.ext_iff.mp (hq' r')
  exact Prod.ext ((hvalue _ _ hw.1).trans ha) ((hrest _).trans hw.2)

theorem shrinks_int : Shrinks int := ⟨shrinks_word?.size, shrinks_word?.text⟩

theorem shrinks_arrayIndex : Shrinks arrayIndex := ⟨shrinks_word?.size, shrinks_word?.text⟩

theorem local_int : Local (·.isOk) int :=
  local_of_word (fun _ => rfl) fun _ _ h => by simp only [int, h]

theorem local_arrayIndex : Local (·.isOk) arrayIndex :=
  local_of_word (fun _ => rfl) fun _ _ h => by simp only [arrayIndex, h]

theorem behind_eq_some {d : Char} {s r : List Char} (h : behind d s = some r) : s.dropWhile (· ≠ d) = d :: r := by
  unfold behind at h
  split at h
  · cases h
  · rename_i c v heq
    cases h
    have hc := head_dropWhile heq
    simp only [ne_eq, decide_not, Bool.not_eq_false', decide_eq_true_eq] at hc
    rw [heq, hc]

/-- A pair is made of two numbers, each up to its delimiter. -/
theorem readCoord_eq_some {s after : List Char} {x y : Int} :
    readCoord s = some (x, y, after) ↔
      ∃ inner second, s = '(' :: inner ∧ (readLong inner).map (·.1) = some x ∧ behind ',' inner = some second ∧
        (readLong second).map (·.1) = some y ∧ behind ')' second = some after := by
  constructor
  · intro h
    unfold readCoord at h
    split at h
    · simp only [Option.bind_eq_bind, Option.bind_some, Option.bind_eq_some_iff, Option.pure_def, Option.some.injEq,
        Prod.mk.injEq] at h
      obtain ⟨a, ha, second, hs, b, hb, after', ha', rfl, rfl, rfl⟩ := h
      exact ⟨_, second, rfl, by rw [ha]; rfl, hs, by rw [hb]; rfl, ha'⟩
    · cases h
  · rintro ⟨inner, second, rfl, hx, hs, hy, ha⟩
    obtain ⟨a, ha', rfl⟩ := Option.map_eq_some_iff.mp hx
    obtain ⟨b, hb', rfl⟩ := Option.map_eq_some_iff.mp hy
    simp [readCoord, ha', hs, hb', ha]

theorem suffix_behind {d : Char} {s r : List Char} (h : behind d s = some r) : r <:+ s :=
  (List.suffix_cons d r).trans (behind_eq_some h ▸ List.dropWhile_suffix (· ≠ d))

theorem length_behind {d : Char} {s r : List Char} (h : behind d s = some r) : r.length < s.length := by
  have hle := List.length_dropWhile_le (· ≠ d) s
  rw [behind_eq_some h, List.length_cons] at hle
  omega

/-- The text behind a delimiter, and the number in front of it. -/
theorem number_local {d : Char} (hd : EndsNumber d) {q r u : List Char} (h : behind d (q ++ r) = some u)
    (hr : r.length ≤ u.length) :
    ∃ q', u = q' ++ r ∧ ∀ r', behind d (q ++ r') = some (q' ++ r') ∧
      (readLong (q ++ r')).map (·.1) = (readLong (q ++ r)).map (·.1) := by
  obtain ⟨q', hu, hq⟩ := dropWhile_of_append (behind_eq_some h) hr
  refine ⟨q', hu, fun r' => ⟨?_, ?_⟩⟩
  · rw [behind, dropWhile_append_cons hq]
  · rw [hd.readLong_local hq, hd.readLong_local hq]

theorem shrinks_coord : Shrinks coord where
  size := by
    rintro ⟨_ | s⟩
    · exact Nat.le_refl _
    have hle := List.length_dropWhile_le isBlank s
    simp only [coord, Option.getD_some]
    cases h : readCoord (s.dropWhile isBlank) with
    | none => simpa only [size, Option.map_some, Nat.add_le_add_iff_right] using hle
    | some p =>
      obtain ⟨inner, second, hs, _, h₁, _, h₂⟩ := readCoord_eq_some.mp h
      have := length_behind h₁
      have := length_behind h₂
      rw [hs, List.length_cons] at hle
      simp only [size]
      omega
  text := by
    rintro ⟨_ | s⟩
    · exact List.suffix_refl _
    have hend : s.dropWhile isBlank <:+ s := List.dropWhile_suffix isBlank
    simp only [coord, Option.getD_some]
    cases h : readCoord (s.dropWhile isBlank) with
    | none => exact hend
    | some p =>
      obtain ⟨inner, second, hs, _, h₁, _, h₂⟩ := readCoord_eq_some.mp h
      have hinner : inner <:+ s := (List.suffix_cons '(' inner).trans (hs ▸ hend)
      exact (suffix_behind h₂).trans ((suffix_behind h₁).trans hinner)

theorem local_coord : Local (·.isOk) coord := by
  intro q r u w hw h hr
  simp only [coord, Option.getD_some] at h
  cases hc : readCoord ((q ++ r).dropWhile isBlank) with
  | none => rw [hc] at h; cases h; cases hw
  | some p =>
    rw [hc] at h
    cases h
    obtain ⟨inner, second, hs, hx, h₁, hy, h₂⟩ := readCoord_eq_some.mp hc
    have := length_behind h₁
    have := length_behind h₂
    obtain ⟨i, rfl, hi⟩ := dropWhile_of_append hs (by omega)
    obtain ⟨s, rfl, hs'⟩ := number_local endsNumber_comma h₁ (by omega)
    obtain ⟨q', hq', ha⟩ := number_local endsNumber_bracket h₂ hr
    refine ⟨q', hq', fun r' => ?_⟩
    have hc' : readCoord ((q ++ r').dropWhile isBlank) = some (p.1, p.2.1, q' ++ r') :=
      readCoord_eq_some.mpr ⟨i ++ r', s ++ r', dropWhile_append_cons hi r', (hs' r').2.trans hx, (hs' r').1,
        (ha r').2.trans hy, (ha r').1⟩
    simp only [coord, Option.getD_some, hc']

end Tokenizer

end Adventure
