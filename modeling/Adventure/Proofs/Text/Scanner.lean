import Adventure.Proofs.Text.Numerals
import Adventure.Proofs.Text.Utf8

/-! The tokenizer as a place in the bytes of its text. The bytes are looked at one by one, also those that are parts of
longer characters, and the text is cut where the byte of a blank or of a delimiter stands. No such byte is part of a longer
character, so the cuts are between characters: the bytes are read in step with the characters, and the place only moves
on. -/

namespace Adventure

open Text

/-! ### Reading bytes -/

namespace Scanner

/-- The place behind the bytes from `i` on that pass a test. -/
def past (p : UInt8 → Bool) (b : List UInt8) (i : Nat) : Nat := i + ((b.drop i).takeWhile p).length

/-- The text between two places, unless one of them is inside of a character. -/
def slice? (text : String) (i j : Nat) : Option String :=
  if h : String.Pos.Raw.IsValid text ⟨i⟩ ∧ String.Pos.Raw.IsValid text ⟨j⟩ ∧ i ≤ j then
    some (String.extract ⟨⟨i⟩, h.1⟩ ⟨⟨j⟩, h.2.1⟩)
  else none

/-- The place behind the byte at `i`, if there is one. -/
def behind (text : String) (i : Nat) : Option Nat := if i < text.utf8ByteSize then some (i + 1) else none

/-- The place of the first byte `d`. -/
def find? (d : UInt8) (s : String) : Option Nat :=
  let i := past (· ≠ d) (bytes s) 0
  if i < s.utf8ByteSize then some i else none

/-- The next word and the place behind it. There is no answer where a character would be cut; so it is with all steps. -/
def word? (text : String) : Option Nat → Option (Option String × Option Nat)
  | none => some (none, none)
  | some i =>
    let start := past isBlankByte (bytes text) i
    if (bytes text)[start]? = some 34 then
      let stop := past (· ≠ 34) (bytes text) (start + 1)
      (slice? text (start + 1) stop).map fun w => (some w, behind text stop)
    else
      let stop := past (!isBlankByte ·) (bytes text) start
      if stop = start then some (none, none)
      else (slice? text start stop).map fun w => (some w, behind text stop)

/-- The rest of the line, blanks before it skipped. -/
def line? (text : String) : Option Nat → Option (Option String × Option Nat)
  | none => some (none, none)
  | some i =>
    let start := past isBlankByte (bytes text) i
    let stop := past (· ≠ 10) (bytes text) start
    (slice? text start stop).map fun w =>
      (some (if stop < text.utf8ByteSize then String.ofList (Tokenizer.chomp w.toList) else w), behind text stop)

/-- What a word says as a number. -/
def asInt (w : String) : Except TokenError Int :=
  match readInt? w.toList with
  | some v => .ok v
  | none => .error (.integer w)

/-- What a word says as an index. -/
def asIndex (w : String) : Except TokenError Int :=
  match w.toList with
  | '[' :: r =>
    match readInt? r with
    | some v => .ok (Word.pred v)
    | none => .error (.arrayIndex w)
  | _ => .error (.arrayIndex w)

def int (text : String) (place : Option Nat) : Option (Except TokenError Int × Option Nat) :=
  (word? text place).map fun (w, place) => (asInt (w.getD ""), place)

def arrayIndex (text : String) (place : Option Nat) : Option (Except TokenError Int × Option Nat) :=
  (word? text place).map fun (w, place) => (asIndex (w.getD ""), place)

/-- The first line of a text. -/
def firstLine (s : List Char) : List Char :=
  let line := s.takeWhile (· ≠ '\n')
  if (s.dropWhile (· ≠ '\n')).isEmpty then line else Tokenizer.chomp line

/-- The two numbers of a pair, each in a part of its own, and how many bytes the pair takes: a bracket and a delimiter
with what stands in front of it, twice. -/
def pair? (s : String) : Option (Option (Int × Int × Nat)) :=
  if (bytes s)[0]? ≠ some 40 then some none
  else (slice? s 1 s.utf8ByteSize).bind fun inner =>
    match readLong inner.toList, find? 44 inner with
    | some (x, _), some comma => (slice? inner (comma + 1) inner.utf8ByteSize).map fun second =>
      match readLong second.toList, find? 41 second with
      | some (y, _), some close => some (x, y, 1 + comma + 1 + close + 1)
      | _, _ => none
    | _, _ => some none

/-- A pair `(x,y)`. One that is none takes only the blanks in front of it. -/
def coord (text : String) (place : Option Nat) : Option (Except TokenError (Int16 × Int16) × Option Nat) :=
  let start := (place.map (past isBlankByte (bytes text))).getD text.utf8ByteSize
  (slice? text start text.utf8ByteSize).bind fun rest => (pair? rest).map fun
    | some (x, y, n) => (.ok (x.toInt16, y.toInt16), some (start + n))
    | none => (.error (.coord (String.ofList (firstLine rest.toList))), place.map fun _ => start)

end Scanner

/-! ### Places between characters -/

variable {text : String} {q r s w : List Char} {p : UInt8 → Bool} {p' : Char → Bool} {t : Tokenizer}

/-- The number of bytes of a text. -/
def Text.width (q : List Char) : Nat := (String.ofList q).utf8ByteSize

theorem Text.width_nil : width [] = 0 := rfl

theorem Text.width_append (q r : List Char) : width (q ++ r) = width q + width r := by
  rw [width, String.ofList_append, String.utf8ByteSize_append]
  rfl

theorem Text.width_cons (c : Char) (q : List Char) : width (c :: q) = c.utf8Size + width q := by
  rw [width, String.ofList_cons, String.utf8ByteSize_append, String.utf8ByteSize_singleton]
  rfl

theorem Text.length_le_width (q : List Char) : q.length ≤ width q := by
  induction q with
  | nil => exact Nat.zero_le _
  | cons c q ih =>
    have hc := c.utf8Size_pos
    rw [width_cons, List.length_cons]
    omega

theorem Text.width_text (h : text.toList = q ++ r) : text.utf8ByteSize = width q + width r := by
  rw [← width_append, ← h, width, String.ofList_toList]

/-- The place in a text at which a tokenizer stands. -/
def Tokenizer.place (text : String) (t : Tokenizer) : Option Nat := t.rest.map fun r => text.utf8ByteSize - width r

theorem Tokenizer.place_some (h : text.toList = q ++ r) : place text ⟨some r⟩ = some (width q) := by
  rw [place, Option.map_some, width_text h, Nat.add_sub_cancel]

namespace Scanner

theorem isValid_width (h : text.toList = q ++ r) : String.Pos.Raw.IsValid text ⟨width q⟩ := by
  refine String.Pos.Raw.isValid_iff_exists_append.mpr ⟨String.ofList q, String.ofList r, ?_, rfl⟩
  rw [← String.ofList_append, ← h, String.ofList_toList]

/-- Between characters the text can be cut. -/
theorem slice?_width (h : text.toList = q ++ (w ++ r)) :
    slice? text (width q) (width (q ++ w)) = some (String.ofList w) := by
  have htext : text = String.ofList q ++ (String.ofList w ++ String.ofList r) := by
    rw [← String.ofList_append, ← String.ofList_append, ← h, String.ofList_toList]
  have hvalid : String.Pos.Raw.IsValid text ⟨width q⟩ ∧ String.Pos.Raw.IsValid text ⟨width (q ++ w)⟩ ∧
      width q ≤ width (q ++ w) :=
    ⟨isValid_width h, isValid_width (h.trans (List.append_assoc q w r).symm), by rw [width_append]; omega⟩
  rw [slice?, dif_pos hvalid, Option.some.injEq]
  apply String.toByteArray_inj.mp
  rw [String.toByteArray_extract]
  simp only
  rw [width_append, htext, String.toByteArray_append, String.toByteArray_append]
  exact (ByteArray.extract_append_size_add (i := 0)).trans (ByteArray.extract_append_eq_left rfl)

theorem slice?_end (h : text.toList = q ++ r) : slice? text (width q) text.utf8ByteSize = some (String.ofList r) := by
  have hcut := slice?_width (h.trans (congrArg (q ++ ·) (List.append_nil r).symm))
  rwa [width_append, ← width_text h] at hcut

theorem length_encoded (q : List Char) : (q.flatMap String.utf8EncodeChar).length = width q := by
  rw [width, ← length_bytes, bytes_eq, String.toList_ofList]

theorem drop_bytes (h : text.toList = q ++ r) : (bytes text).drop (width q) = r.flatMap String.utf8EncodeChar := by
  rw [bytes_eq, h, List.flatMap_append, ← length_encoded, List.drop_left]

/-! ### Tests of bytes and of characters -/

/-- A test of bytes that stands for one of characters: all bytes of a character pass it, or already the first one fails. -/
structure Agrees (p : UInt8 → Bool) (p' : Char → Bool) : Prop where
  pass : ∀ c, p' c = true → ∀ b ∈ String.utf8EncodeChar c, p b = true
  stop : ∀ c, p' c = false → ∃ b r, String.utf8EncodeChar c = b :: r ∧ p b = false

theorem encode_low {c : Char} (h : c.toNat < 128) : String.utf8EncodeChar c = [UInt8.ofNat c.toNat] := by
  have hval : c.val.toNat < 128 := h
  simp only [String.utf8EncodeChar]
  rw [if_pos (by omega)]
  rfl

/-- The bytes of longer characters are none of those that stand for a character alone. -/
theorem high_of_mem {c : Char} (h : 128 ≤ c.toNat) {b : UInt8} (hb : b ∈ String.utf8EncodeChar c) : 128 ≤ b.toNat := by
  have hval : 128 ≤ c.val.toNat := h
  have hbyte {n : Nat} (hn : 128 ≤ n ∧ n < 256) : 128 ≤ (UInt8.ofNat n).toNat := by
    rw [UInt8.toNat_ofNat_of_lt' hn.2]
    exact hn.1
  unfold String.utf8EncodeChar at hb
  generalize c.val.toNat = v at hval hb
  simp only at hb
  rw [if_neg (by omega)] at hb
  -- The cases are the lengths of the encoding.
  split at hb
  · simp only [List.mem_cons, List.not_mem_nil, or_false] at hb
    obtain rfl | rfl := hb <;> exact hbyte (by omega)
  split at hb
  · simp only [List.mem_cons, List.not_mem_nil, or_false] at hb
    obtain rfl | rfl | rfl := hb <;> exact hbyte (by omega)
  · simp only [List.mem_cons, List.not_mem_nil, or_false] at hb
    obtain rfl | rfl | rfl | rfl := hb <;> exact hbyte (by omega)

/-- Tests that agree on short characters, and do not tell longer ones from each other. -/
theorem agrees_of (high : Bool) (hlow : ∀ c : Char, c.toNat < 128 → p (UInt8.ofNat c.toNat) = p' c)
    (hbyte : ∀ b : UInt8, 128 ≤ b.toNat → p b = high) (hchar : ∀ c : Char, 128 ≤ c.toNat → p' c = high) : Agrees p p' := by
  constructor
  · intro c hc b hb
    by_cases h : c.toNat < 128
    · rw [encode_low h, List.mem_singleton] at hb
      rw [hb, hlow c h, hc]
    · have h := Nat.not_lt.mp h
      rw [hbyte b (high_of_mem h hb), ← hchar c h, hc]
  · intro c hc
    by_cases h : c.toNat < 128
    · exact ⟨_, [], encode_low h, (hlow c h).trans hc⟩
    · have h := Nat.not_lt.mp h
      obtain ⟨b, r, hb⟩ := List.exists_cons_of_ne_nil (String.utf8EncodeChar_ne_nil (c := c))
      exact ⟨b, r, hb, by rw [hbyte b (high_of_mem h (hb ▸ List.mem_cons_self)), ← hchar c h, hc]⟩

theorem isBlankByte_high (b : UInt8) (h : 128 ≤ b.toNat) : isBlankByte b = false := by
  simp only [isBlankByte, Bool.or_eq_false_iff, beq_eq_false_iff_ne]
  refine ⟨⟨⟨⟨?_, ?_⟩, ?_⟩, ?_⟩, ?_⟩ <;> rintro rfl <;> exact absurd h (by decide)

theorem isBlank_high (c : Char) (h : 128 ≤ c.toNat) : isBlank c = false := by
  simp only [isBlank, Bool.or_eq_false_iff, beq_eq_false_iff_ne]
  refine ⟨⟨⟨⟨?_, ?_⟩, ?_⟩, ?_⟩, ?_⟩ <;> rintro rfl <;> exact absurd h (by decide)

theorem isBlankByte_low (c : Char) (h : c.toNat < 128) : isBlankByte (UInt8.ofNat c.toNat) = isBlank c := by
  have hall : ∀ n < 128, isBlankByte (UInt8.ofNat n) = isBlank (Char.ofNat n) := by decide
  rw [hall c.toNat h, Char.ofNat_toNat]

theorem agrees_blank : Agrees isBlankByte isBlank := agrees_of false isBlankByte_low isBlankByte_high isBlank_high

theorem agrees_visible : Agrees (!isBlankByte ·) (!isBlank ·) := by
  refine agrees_of true (fun c hc => ?_) (fun b hb => ?_) fun c hc => ?_
  · rw [isBlankByte_low c hc]
  · rw [isBlankByte_high b hb, Bool.not_false]
  · rw [isBlank_high c hc, Bool.not_false]

/-- A byte that stands for a character alone, and that character. -/
structure Delimiter (d : UInt8) (c : Char) : Prop where
  low : c.toNat < 128
  byte : d = UInt8.ofNat c.toNat

theorem Delimiter.agrees {d : UInt8} {c : Char} (h : Delimiter d c) : Agrees (· ≠ d) (· ≠ c) := by
  obtain ⟨hlow, rfl⟩ := h
  have hbyte {n : Nat} (hn : n < 128) : (UInt8.ofNat n).toNat = n :=
    UInt8.toNat_ofNat_of_lt' (Nat.lt_trans hn (by decide))
  refine agrees_of true (fun c' hc' => ?_) (fun b hb => ?_) fun c' hc' => ?_
  · rw [decide_eq_decide]
    refine not_congr ⟨fun he => ?_, fun he => by rw [he]⟩
    have hcode := congrArg UInt8.toNat he
    rw [hbyte hc', hbyte hlow] at hcode
    rw [← Char.ofNat_toNat c', hcode, Char.ofNat_toNat]
  · rw [decide_eq_true_eq]
    rintro rfl
    rw [hbyte hlow] at hb
    omega
  · rw [decide_eq_true_eq]
    rintro rfl
    omega

theorem Delimiter.size {d : UInt8} {c : Char} (h : Delimiter d c) : c.utf8Size = 1 := by
  rw [← String.length_utf8EncodeChar, encode_low h.low]
  rfl

theorem Delimiter.size_of_stop {d : UInt8} {c : Char} (h : Delimiter d c) (c' : Char) (hc : decide (c' ≠ c) = false) :
    c'.utf8Size = 1 := by
  obtain rfl : c' = c := by simpa using hc
  exact h.size

theorem Agrees.takeWhile (h : Agrees p p') (r : List Char) :
    (r.flatMap String.utf8EncodeChar).takeWhile p = (r.takeWhile p').flatMap String.utf8EncodeChar := by
  induction r with
  | nil => rfl
  | cons c r ih =>
    rw [List.flatMap_cons]
    cases hc : p' c with
    | true => rw [List.takeWhile_append_of_pos (h.pass c hc), ih, List.takeWhile_cons_of_pos hc, List.flatMap_cons]
    | false =>
      obtain ⟨b, u, hb, hstop⟩ := h.stop c hc
      rw [hb, List.cons_append, List.takeWhile_cons_of_neg (by simp [hstop]), List.takeWhile_cons_of_neg (by simp [hc])]
      rfl

theorem past_width (hp : Agrees p p') (h : text.toList = q ++ r) :
    past p (bytes text) (width q) = width (q ++ r.takeWhile p') := by
  rw [past, drop_bytes h, hp.takeWhile, length_encoded, width_append]

/-- The byte at a place stands for a delimiter just when the character there is one. -/
theorem getElem?_width {d : UInt8} {c : Char} (hd : Delimiter d c) (h : text.toList = q ++ r) :
    (bytes text)[width q]? = some d ↔ r.head? = some c := by
  have hbyte : (bytes text)[width q]? = (r.flatMap String.utf8EncodeChar).head? := by
    rw [← drop_bytes h, List.head?_drop]
  rw [hbyte]
  cases r with
  | nil => simp
  | cons c' r =>
    rw [List.flatMap_cons, List.head?_cons, Option.some.injEq]
    by_cases hc : c' = c
    · subst hc
      rw [encode_low hd.low, hd.byte]
      simp
    · obtain ⟨b, u, hb⟩ := List.exists_cons_of_ne_nil (String.utf8EncodeChar_ne_nil (c := c'))
      have hpass := hd.agrees.pass c' (by simpa using hc) b (hb ▸ List.mem_cons_self)
      rw [hb]
      simp only [List.cons_append, List.head?_cons, Option.some.injEq, hc, iff_false]
      simpa using hpass

/-! ### Bytes and characters in step -/

theorem delimiter_quote : Delimiter 34 '"' := ⟨by decide, rfl⟩

theorem delimiter_feed : Delimiter 10 '\n' := ⟨by decide, rfl⟩

theorem delimiter_open : Delimiter 40 '(' := ⟨by decide, rfl⟩

theorem delimiter_comma : Delimiter 44 ',' := ⟨by decide, rfl⟩

theorem delimiter_close : Delimiter 41 ')' := ⟨by decide, rfl⟩

theorem behind_width (h : text.toList = q ++ r) (hr : ∀ c ∈ r.head?, c.utf8Size = 1) :
    behind text (width q) = (Tokenizer.afterDelimiter r).place text := by
  rw [behind, width_text h]
  cases r with
  | nil => exact if_neg (Nat.lt_irrefl _)
  | cons c r =>
    have hc := hr c rfl
    have hplace : Tokenizer.place text ⟨some r⟩ = some (width (q ++ [c])) :=
      Tokenizer.place_some (h.trans (List.append_cons q c r))
    rw [width_cons, hc, if_pos (by omega)]
    exact hplace.symm ▸ congrArg some (by rw [width_append, width_cons, hc]; rfl)

/-- Where scanning stops at a character of one byte, what has been passed is cut off, and the place is the one behind that
character. -/
theorem cut_width (hp : Agrees p p') (hsize : ∀ c, p' c = false → c.utf8Size = 1) (h : text.toList = q ++ r) :
    slice? text (width q) (past p (bytes text) (width q)) = some (String.ofList (r.takeWhile p')) ∧
      behind text (past p (bytes text) (width q)) = (Tokenizer.afterDelimiter (r.dropWhile p')).place text := by
  have hsplit : text.toList = q ++ (r.takeWhile p' ++ r.dropWhile p') := by rw [List.takeWhile_append_dropWhile, h]
  rw [past_width hp h]
  refine ⟨slice?_width hsplit, behind_width (hsplit.trans (List.append_assoc _ _ _).symm) fun c hc => ?_⟩
  have hstop := List.head?_dropWhile_not p' r
  rw [hc] at hstop
  exact hsize c (by simpa using hstop)

theorem skip_width (h : text.toList = q ++ s) : text.toList = q ++ s.takeWhile isBlank ++ s.dropWhile isBlank ∧
    past isBlankByte (bytes text) (width q) = width (q ++ s.takeWhile isBlank) := by
  refine ⟨?_, past_width agrees_blank h⟩
  rw [List.append_assoc, List.takeWhile_append_dropWhile, h]

theorem word?_place (h : t.text <:+ text.toList) :
    word? text (t.place text) = some (t.word?.1, t.word?.2.place text) := by
  obtain ⟨_ | s⟩ := t
  · rfl
  obtain ⟨q, h⟩ : s <:+ text.toList := h
  obtain ⟨hskip, hstart⟩ := skip_width h.symm
  rw [Tokenizer.place_some h.symm, word?, hstart]
  cases hd : s.dropWhile isBlank with
  | nil =>
    rw [hd] at hskip
    have hstop := past_width agrees_visible hskip
    rw [List.takeWhile_nil, List.append_nil] at hstop
    have hnone : ¬ (bytes text)[width (q ++ s.takeWhile isBlank)]? = some 34 := by
      rw [getElem?_width delimiter_quote hskip]
      nofun
    simp only [if_neg hnone, hstop, if_pos, Tokenizer.word?, hd]
    rfl
  | cons c v =>
    rw [hd] at hskip
    by_cases hc : c = '"'
    · subst hc
      have hquote : (bytes text)[width (q ++ s.takeWhile isBlank)]? = some 34 :=
        (getElem?_width delimiter_quote hskip).mpr rfl
      have hnext : width (q ++ s.takeWhile isBlank) + 1 = width (q ++ s.takeWhile isBlank ++ ['"']) := by
        rw [width_append _ ['"']]
        rfl
      have hcut := cut_width delimiter_quote.agrees delimiter_quote.size_of_stop (hskip.trans (List.append_cons _ '"' v))
      simp only [if_pos hquote, hnext, hcut.1, hcut.2, Tokenizer.word?_quoted hd]
      rfl
    · have hnone : ¬ (bytes text)[width (q ++ s.takeWhile isBlank)]? = some 34 := by
        rw [getElem?_width delimiter_quote hskip, List.head?_cons, Option.some.injEq]
        exact hc
      have hcut := cut_width agrees_visible (fun c hc => utf8Size_of_blank (by simpa using hc)) hskip
      have hmoved : past (!isBlankByte ·) (bytes text) (width (q ++ s.takeWhile isBlank)) ≠
          width (q ++ s.takeWhile isBlank) := by
        have hsize := c.utf8Size_pos
        rw [past_width agrees_visible hskip, List.takeWhile_cons_of_pos (by simp [head_dropWhile hd]),
          width_append _ (c :: _), width_cons]
        omega
      simp only [if_neg hnone, if_neg hmoved, hcut.1, hcut.2, Tokenizer.word?_plain hd hc]
      rfl

theorem line?_place (h : t.text <:+ text.toList) :
    line? text (t.place text) = some (t.line?.1, t.line?.2.place text) := by
  obtain ⟨_ | s⟩ := t
  · rfl
  obtain ⟨q, h⟩ : s <:+ text.toList := h
  obtain ⟨hskip, hstart⟩ := skip_width h.symm
  have hcut := cut_width delimiter_feed.agrees delimiter_feed.size_of_stop hskip
  have hstop := past_width delimiter_feed.agrees hskip
  have hparts := List.takeWhile_append_dropWhile (p := (· ≠ '\n')) (l := s.dropWhile isBlank)
  have hsize : text.utf8ByteSize = past (· ≠ 10) (bytes text) (width (q ++ s.takeWhile isBlank)) +
      width ((s.dropWhile isBlank).dropWhile (· ≠ '\n')) :=
    hstop ▸ width_text (by rw [List.append_assoc, hparts, hskip])
  rw [Tokenizer.place_some h.symm, line?, hstart]
  simp only [hcut.1, hcut.2, Option.map_some, Tokenizer.line?]
  cases hd : (s.dropWhile isBlank).dropWhile (· ≠ '\n') with
  | nil =>
    rw [hd, width_nil, Nat.add_zero] at hsize
    rw [hd, List.append_nil] at hparts
    rw [if_neg (Nat.not_lt.mpr (Nat.le_of_eq hsize)), hparts]
    rfl
  | cons c v =>
    have hc := c.utf8Size_pos
    rw [hd, width_cons] at hsize
    rw [if_pos (by omega), String.toList_ofList]
    rfl

theorem int_place (h : t.text <:+ text.toList) : int text (t.place text) = some (t.int.1, t.int.2.place text) := by
  rw [int, word?_place h]
  rfl

theorem arrayIndex_place (h : t.text <:+ text.toList) :
    arrayIndex text (t.place text) = some (t.arrayIndex.1, t.arrayIndex.2.place text) := by
  rw [arrayIndex, word?_place h]
  rfl

theorem find?_eq {d : UInt8} {c : Char} (hd : Delimiter d c) (s : List Char) : find? d (String.ofList s) =
    if width (s.takeWhile (· ≠ c)) < width s then some (width (s.takeWhile (· ≠ c))) else none := by
  have hstop := past_width hd.agrees (q := []) (String.toList_ofList (l := s))
  exact congrArg (fun i => if i < width s then some i else none) hstop

theorem find?_none {d : UInt8} {c : Char} (hd : Delimiter d c) (h : Tokenizer.behind c s = none) :
    find? d (String.ofList s) = none := by
  have hparts := List.takeWhile_append_dropWhile (p := (· ≠ c)) (l := s)
  unfold Tokenizer.behind at h
  split at h
  · rename_i hnil
    rw [hnil, List.append_nil] at hparts
    rw [find?_eq hd, hparts, if_neg (Nat.lt_irrefl _)]
  · cases h

/-- The place of a delimiter, and the text behind it. -/
theorem find?_some {d : UInt8} {c : Char} (hd : Delimiter d c) (h : Tokenizer.behind c s = some r) :
    ∃ i, find? d (String.ofList s) = some i ∧ width s = i + 1 + width r ∧
      slice? (String.ofList s) (i + 1) (String.ofList s).utf8ByteSize = some (String.ofList r) := by
  have hparts := List.takeWhile_append_dropWhile (p := (· ≠ c)) (l := s)
  rw [Tokenizer.behind_eq_some h] at hparts
  have hnext : width (s.takeWhile (· ≠ c) ++ [c]) = width (s.takeWhile (· ≠ c)) + 1 := by
    rw [width_append, width_cons, hd.size]
    rfl
  have hsize : width s = width (s.takeWhile (· ≠ c)) + 1 + width r := by
    rw [← hnext, ← width_append, ← List.append_cons, hparts]
  refine ⟨_, (find?_eq hd s).trans (if_pos (by omega)), hsize, ?_⟩
  rw [← hnext]
  exact slice?_end (by rw [String.toList_ofList, ← List.append_cons, hparts])

theorem open_iff (r : List Char) : (bytes (String.ofList r))[0]? = some 40 ↔ r.head? = some '(' :=
  getElem?_width delimiter_open (q := []) String.toList_ofList

theorem readCoord_open (inner : List Char) : Tokenizer.readCoord ('(' :: inner) =
    (readLong inner).bind fun x => (Tokenizer.behind ',' inner).bind fun second =>
      (readLong second).bind fun y => (Tokenizer.behind ')' second).map fun after => (x.1, y.1, after) := by
  simp only [Tokenizer.readCoord, Option.map_eq_bind]
  rfl

theorem readCoord_other {r : List Char} (h : r.head? ≠ some '(') : Tokenizer.readCoord r = none := by
  unfold Tokenizer.readCoord
  split
  · exact absurd rfl h
  · rfl

/-- The bytes of a pair are those up to the text behind it. -/
theorem pair?_eq (r : List Char) : pair? (String.ofList r) =
    some ((Tokenizer.readCoord r).map fun (x, y, after) => (x, y, width r - width after)) := by
  by_cases hopen : r.head? = some '('
  · obtain ⟨inner, rfl⟩ := List.head?_eq_some_iff.mp hopen
    have hinner : slice? (String.ofList ('(' :: inner)) 1 (String.ofList ('(' :: inner)).utf8ByteSize =
        some (String.ofList inner) := slice?_end (q := ['(']) String.toList_ofList
    rw [pair?, if_neg (not_not_intro ((open_iff _).mpr hopen)), hinner, Option.bind_some, String.toList_ofList,
      readCoord_open]
    cases readLong inner with
    | none => rfl
    | some x =>
      cases hcomma : Tokenizer.behind ',' inner with
      | none => rw [find?_none delimiter_comma hcomma]; rfl
      | some second =>
        obtain ⟨i, hi, hsize, hsecond⟩ := find?_some delimiter_comma hcomma
        simp only [hi, hsecond, Option.map_some, Option.bind_some, String.toList_ofList]
        cases readLong second with
        | none => rfl
        | some y =>
          cases hclose : Tokenizer.behind ')' second with
          | none => rw [find?_none delimiter_close hclose]; rfl
          | some after =>
            obtain ⟨j, hj, hsize', -⟩ := find?_some delimiter_close hclose
            have htaken : 1 + i + 1 + j + 1 = width ('(' :: inner) - width after := by
              rw [width_cons, delimiter_open.size]
              omega
            rw [hj]
            exact congrArg (fun n => some (some (x.1, y.1, n))) htaken
  · rw [pair?, if_pos fun h => hopen ((open_iff r).mp h), readCoord_other hopen]
    rfl

theorem coord_some {x y : Int} {after : List Char}
    (h : Tokenizer.readCoord (t.text.dropWhile isBlank) = some (x, y, after)) :
    t.coord = (.ok (x.toInt16, y.toInt16), ⟨some after⟩) := by
  rw [Tokenizer.text] at h
  simp only [Tokenizer.coord, h]

theorem coord_none (h : Tokenizer.readCoord (t.text.dropWhile isBlank) = none) :
    t.coord = (.error (.coord (String.ofList (firstLine (t.text.dropWhile isBlank)))),
      ⟨t.rest.map fun _ => t.text.dropWhile isBlank⟩) := by
  rw [Tokenizer.text] at h
  simp only [Tokenizer.coord, h]
  rfl

theorem readCoord_suffix {x y : Int} {after : List Char} (h : Tokenizer.readCoord r = some (x, y, after)) :
    after <:+ r := by
  obtain ⟨inner, second, rfl, -, hcomma, -, hclose⟩ := Tokenizer.readCoord_eq_some.mp h
  exact ((Tokenizer.suffix_behind hclose).trans (Tokenizer.suffix_behind hcomma)).trans (List.suffix_cons '(' inner)

theorem coord_place (h : t.text <:+ text.toList) :
    coord text (t.place text) = some (t.coord.1, t.coord.2.place text) := by
  obtain ⟨q, hq⟩ := h
  obtain ⟨hskip, hstart⟩ := skip_width hq.symm
  have hplace : ((t.place text).map (past isBlankByte (bytes text))).getD text.utf8ByteSize =
      width (q ++ t.text.takeWhile isBlank) := by
    obtain ⟨_ | s⟩ := t
    · exact (width_text hskip).trans (Nat.add_zero _)
    · rw [Tokenizer.place_some (r := s) hq.symm]
      exact hstart
  have hsize := width_text hskip
  rw [coord, hplace, slice?_end hskip, Option.bind_some, pair?_eq, Option.map_some, String.toList_ofList]
  cases hpair : Tokenizer.readCoord (t.text.dropWhile isBlank) with
  | some p =>
    obtain ⟨x, y, after⟩ := p
    obtain ⟨taken, htaken⟩ := readCoord_suffix hpair
    have hwidth := width_append taken after
    rw [htaken] at hwidth
    have hplace : width (q ++ t.text.takeWhile isBlank) + (width (t.text.dropWhile isBlank) - width after) =
        text.utf8ByteSize - width after := by omega
    rw [coord_some hpair, Option.map_some]
    exact congrArg (fun n => some (_, some n)) hplace
  | none =>
    have hplace : width (q ++ t.text.takeWhile isBlank) = text.utf8ByteSize - width (t.text.dropWhile isBlank) := by omega
    rw [coord_none hpair, Tokenizer.place, Option.map_map, Tokenizer.place, Option.map_map]
    exact congrArg (fun n => some (_, t.rest.map fun _ => n)) hplace

end Scanner

end Adventure
