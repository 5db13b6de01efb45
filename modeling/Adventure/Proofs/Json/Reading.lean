import Adventure.Json.Reader
import Mathlib.Data.List.TakeDrop
import Mathlib.Tactic.SplitIfs

/-! Compact texts read back. Without decimal numbers a value is known by its compact text: the reader gives the value
again, however deep it is, and so no two values share a text. -/

namespace Adventure.Json

/-- All numbers of the value are integers. -/
inductive Exact : Json → Prop
  | null : Exact .null
  | bool (b : Bool) : Exact (.bool b)
  | int (n : Int) : Exact (.int n)
  | str (s : String) : Exact (.str s)
  | arr {items : List Json} (h : ∀ v ∈ items, Exact v) : Exact (.arr items)
  | obj {members : List (String × Json)} (h : ∀ m ∈ members, Exact m.2) : Exact (.obj members)

/-- What can follow a value: nothing, or what ends it in an array or an object. -/
def Ends : List Char → Prop
  | [] => True
  | c :: _ => c = ',' ∨ c = ']' ∨ c = '\x7d'

theorem ends_comma (r : List Char) : Ends (',' :: r) := Or.inl rfl

theorem ends_bracket (r : List Char) : Ends (']' :: r) := Or.inr (Or.inl rfl)

theorem ends_brace (r : List Char) : Ends ('\x7d' :: r) := Or.inr (Or.inr rfl)

variable {r : List Char}

/-! ### Numbers -/

theorem spanDigits_toDigits (n : Nat) (hr : Ends r) : spanDigits (Nat.toDigits 10 n ++ r) = (Nat.toDigits 10 n, r) := by
  have hdigits : ∀ c ∈ Nat.toDigits 10 n, decide ('0' ≤ c ∧ c ≤ '9') = true := by
    intro c hc
    have hdigit := Nat.isDigit_of_mem_toDigits (by decide) (by decide) hc
    simpa [Char.isDigit, Char.le_def] using hdigit
  have hrest : r.takeWhile (fun c => decide ('0' ≤ c ∧ c ≤ '9')) = [] ∧
      r.dropWhile (fun c => decide ('0' ≤ c ∧ c ≤ '9')) = r := by
    cases r with
    | nil => exact ⟨rfl, rfl⟩
    | cons c r => rcases hr with rfl | rfl | rfl <;> exact ⟨rfl, rfl⟩
  rw [spanDigits, List.span_eq_takeWhile_dropWhile, List.takeWhile_append_of_pos hdigits, List.dropWhile_append_of_pos hdigits,
    hrest.1, hrest.2, List.append_nil]

/-- The digits of a number do not open with a zero, if it is not zero itself. -/
theorem head?_toDigits {n : Nat} (h : n ≠ 0) : (Nat.toDigits 10 n).head? ≠ some '0' := by
  induction n using Nat.strongRecOn with
  | ind n ih =>
    by_cases hn : n < 10
    · have hdigit : ∀ m < 10, m ≠ 0 → [Nat.digitChar m].head? ≠ some '0' := by decide
      rw [Nat.toDigits_of_lt_base hn]
      exact hdigit n hn h
    · have hfront := ih (n / 10) (by omega) (by omega)
      rw [Nat.toDigits_eq_if (by decide), if_neg hn, List.head?_append]
      cases hhead : (Nat.toDigits 10 (n / 10)).head? with
      | none => exact absurd (List.head?_eq_none_iff.mp hhead) Nat.toDigits_ne_nil
      | some c => rwa [hhead] at hfront

theorem foldl_toDigits (n : Nat) : (Nat.toDigits 10 n).foldl (fun (n : Nat) c => n * 10 + (c.toNat - 48)) 0 = n := by
  have hvalue := Nat.ofDigitChars_toDigits (b := 10) (n := n) (by decide) (by decide)
  rw [Nat.ofDigitChars_eq_foldl] at hvalue
  simp only [Nat.mul_comm 10] at hvalue
  exact hvalue

/-- The digits of a number are one. -/
theorem wellFormed_toDigits (n : Nat) :
    ¬((Nat.toDigits 10 n).isEmpty ∨ (Nat.toDigits 10 n).head? = some '0' ∧ 1 < (Nat.toDigits 10 n).length) := by
  rintro (hempty | ⟨hhead, hlong⟩)
  · exact Nat.toDigits_ne_nil (List.isEmpty_iff.mp hempty)
  · by_cases hn : n = 0
    · subst hn
      exact absurd hlong (by decide)
    · exact head?_toDigits hn hhead

theorem readFraction_ends (hr : Ends r) : readFraction r = some ([], r) := by
  cases r with
  | nil => rfl
  | cons c r => rcases hr with rfl | rfl | rfl <;> rfl

theorem readExponent_ends (hr : Ends r) : readExponent r = some ([], r) := by
  cases r with
  | nil => rfl
  | cons c r => rcases hr with rfl | rfl | rfl <;> rfl

/-- Digits are read as the number that they are. -/
theorem readNumber_toDigits (n : Nat) (hr : Ends r) : readNumber (Nat.toDigits 10 n ++ r) = some (.int n, r) := by
  have hsign (t : List Char) : Nat.toDigits 10 n ++ r ≠ '-' :: t := by
    intro h
    cases hdigits : Nat.toDigits 10 n with
    | nil => exact Nat.toDigits_ne_nil hdigits
    | cons c d =>
      rw [hdigits] at h
      obtain ⟨rfl, -⟩ := List.cons.inj h
      exact absurd (Nat.isDigit_of_mem_toDigits (by decide) (by decide) (hdigits ▸ List.mem_cons_self)) (by decide)
  simp only [readNumber, spanDigits_toDigits n hr, if_neg (wellFormed_toDigits n), foldl_toDigits]
  rw [readFraction_ends hr, Option.bind_eq_bind, Option.bind_some, readExponent_ends hr, Option.bind_some]
  simp

theorem readNumber_minus {n : Nat} (hn : n ≠ 0) (hr : Ends r) :
    readNumber ('-' :: (Nat.toDigits 10 n ++ r)) = some (.int (-n), r) := by
  simp only [readNumber, spanDigits_toDigits n hr, if_neg (wellFormed_toDigits n), foldl_toDigits]
  rw [readFraction_ends hr, Option.bind_eq_bind, Option.bind_some, readExponent_ends hr, Option.bind_some]
  simp [hn]

theorem readNumber_int (n : Int) (hr : Ends r) : readNumber ((toString n).toList ++ r) = some (.int n, r) := by
  rw [Int.toString_eq_repr, Int.repr_eq_if]
  split
  · rename_i hn
    rw [Nat.toList_repr, readNumber_toDigits _ hr, Int.toNat_of_nonneg hn]
  · rename_i hn
    have hback : -((-n).toNat : Int) = n := by omega
    rw [String.toList_append, Nat.toList_repr]
    exact (readNumber_minus (by omega) hr).trans (by rw [hback])

/-- An integer opens with a digit or with a minus sign. -/
theorem toString_head (n : Int) : ∃ c t, (toString n).toList = c :: t ∧ (c.isDigit = true ∨ c = '-') := by
  rw [Int.toString_eq_repr, Int.repr_eq_if]
  split
  · rw [Nat.toList_repr]
    cases hdigits : Nat.toDigits 10 n.toNat with
    | nil => exact absurd hdigits Nat.toDigits_ne_nil
    | cons c t =>
      exact ⟨c, t, rfl, Or.inl (Nat.isDigit_of_mem_toDigits (by decide) (by decide) (hdigits ▸ List.mem_cons_self))⟩
  · rw [String.toList_append]
    exact ⟨'-', _, rfl, Or.inr rfl⟩

/-! ### Strings -/

theorem hexValue?_nibble : ∀ n < 16, hexValue? (nibble n) = some n := by decide

theorem readUnit_control {n : Nat} (hn : n < 32) (r : List Char) :
    readUnit ('0' :: '0' :: nibble (n / 16) :: nibble (n % 16) :: r) = some (n, r) := by
  have hzero : hexValue? '0' = some 0 := rfl
  simp only [readUnit, hzero, hexValue?_nibble _ (show n / 16 < 16 by omega), hexValue?_nibble _ (show n % 16 < 16 by omega),
    Option.bind_eq_bind, Option.bind_some, Option.pure_def]
  congr 2
  omega

theorem readEscape_control {c : Char} (hc : c.toNat < 32) (r : List Char) :
    readEscape ('u' :: '0' :: '0' :: nibble (c.toNat / 16) :: nibble (c.toNat % 16) :: r) = some (some c, r) := by
  have hlow : ¬(0xDC00 ≤ c.toNat ∧ c.toNat < 0xE000) := by omega
  have hhigh : ¬(0xD800 ≤ c.toNat ∧ c.toNat < 0xDC00) := by omega
  simp only [readEscape, readUnit_control hc, Option.bind_eq_bind, Option.bind_some, if_neg hlow, if_neg hhigh,
    Char.ofNat_toNat, Option.pure_def]

/-- A character is written as it is, or as an escape that is read back. -/
theorem escapeChar_cases (c : Char) :
    (escapeChar c = [c] ∧ c ≠ '"' ∧ c ≠ '\\' ∧ ¬c.toNat < 32) ∨
      ∃ t, escapeChar c = '\\' :: t ∧ ∀ r, readEscape (t ++ r) = some (some c, r) := by
  unfold escapeChar
  split_ifs with hquote hslash
  -- the escapes of one letter
  any_goals
    subst c
    exact Or.inr ⟨_, rfl, fun _ => rfl⟩
  · rename_i hcontrol
    exact Or.inr ⟨_, rfl, readEscape_control hcontrol⟩
  · rename_i hcontrol
    exact Or.inl ⟨rfl, hquote, hslash, hcontrol⟩

theorem readString_escaped (s : List Char) : ∀ (fuel : Nat) (acc r : List Char), s.length < fuel →
    readString false fuel acc (s.flatMap escapeChar ++ '"' :: r) = some (String.ofList (acc.reverse ++ s), r) := by
  induction s with
  | nil =>
    intro fuel acc r hfuel
    obtain ⟨fuel, rfl⟩ := Nat.exists_eq_add_of_lt hfuel
    simp [readString]
  | cons c s ih =>
    intro fuel acc r hfuel
    obtain ⟨fuel, rfl⟩ := Nat.exists_eq_add_of_lt hfuel
    have hnext := ih (s.length + 1 + fuel) (c :: acc) r (by omega)
    rw [List.reverse_cons, List.append_assoc, List.singleton_append] at hnext
    rw [List.flatMap_cons, List.append_assoc]
    rcases escapeChar_cases c with ⟨hplain, hquote, hslash, hcontrol⟩ | ⟨t, hescape, hread⟩
    · rw [hplain, List.singleton_append, readString, if_neg hquote, if_neg hslash, if_neg hcontrol]
      exact hnext
    · rw [hescape, List.cons_append, readString, if_neg (by decide), if_pos rfl, hread, Option.bind_eq_bind, Option.bind_some]
      exact hnext

/-- A string is read back behind its opening quote. -/
theorem readString_quote (s : String) (r : List Char) (fuel : Nat) (hfuel : s.length < fuel) :
    readString false fuel [] (s.toList.flatMap escapeChar ++ '"' :: r) = some (s, r) := by
  rw [readString_escaped s.toList fuel [] r hfuel]
  simp

theorem length_le_escaped (s : String) : s.length ≤ (s.toList.flatMap escapeChar).length := by
  rw [← String.length_toList]
  induction s.toList with
  | nil => exact Nat.zero_le _
  | cons c l ih =>
    have hone : 1 ≤ (escapeChar c).length := by
      rcases escapeChar_cases c with ⟨h, -⟩ | ⟨t, h, -⟩ <;> simp [h]
    rw [List.flatMap_cons, List.length_cons, List.length_append]
    omega

/-! ### Values -/

/-- The character opens a value: it is no blank and ends nothing. -/
def Opens (c : Char) : Prop := c ≠ ' ' ∧ c ≠ '\t' ∧ c ≠ '\n' ∧ c ≠ '\r' ∧ c ≠ ']' ∧ c ≠ '\x7d'

instance (c : Char) : Decidable (Opens c) := inferInstanceAs (Decidable (_ ∧ _))

theorem skipBlanks_opens {c : Char} (hc : Opens c) (t : List Char) : skipBlanks (c :: t) = c :: t := by
  obtain ⟨hspace, htab, hline, hreturn, -⟩ := hc
  simp [skipBlanks, hspace, htab, hline, hreturn]

theorem opens_digit {c : Char} (hc : c.isDigit = true ∨ c = '-') : Opens c := by
  refine ⟨?_, ?_, ?_, ?_, ?_, ?_⟩ <;> (rintro rfl; revert hc; decide)

variable {v : Json}

theorem Exact.opens (h : v.Exact) : ∃ c t, v.write = c :: t ∧ Opens c := by
  cases h with
  | null => exact ⟨'n', _, rfl, by decide⟩
  | bool b => cases b <;> exact ⟨_, _, rfl, by decide⟩
  | int n =>
    obtain ⟨c, t, heq, hc⟩ := toString_head n
    exact ⟨c, t, heq, opens_digit hc⟩
  | str s => exact ⟨'"', _, rfl, by decide⟩
  | arr _ => exact ⟨'[', _, rfl, by decide⟩
  | obj _ => exact ⟨'\x7b', _, rfl, by decide⟩

/-- The text of the value is read back in front of what can follow it. -/
def Reads (v : Json) : Prop := ∀ (fuel : Nat) (r : List Char), Ends r → 2 * v.write.length ≤ fuel →
  readValue fuel .whole (v.write ++ r) = some (v, r)

theorem reads_int (n : Int) : Reads (.int n) := by
  intro fuel r hr hfuel
  obtain ⟨c, t, heq, hc⟩ := toString_head n
  have hread := readNumber_int n hr
  simp only [write] at hfuel ⊢
  rw [heq] at hfuel hread ⊢
  obtain ⟨fuel, rfl⟩ := Nat.exists_eq_add_of_lt (show 0 < fuel by rw [List.length_cons] at hfuel; omega)
  rw [List.cons_append] at hread ⊢
  rw [Nat.zero_add, readValue, skipBlanks_opens (opens_digit hc)]
  split
  case h_1 h => cases h
  case h_8 => exact hread
  all_goals
    rename_i h
    obtain ⟨rfl, -⟩ := List.cons.inj h
    exact absurd hc (by decide)

theorem reads_str (s : String) : Reads (.str s) := by
  intro fuel r _ hfuel
  have hpos : 0 < fuel := by
    simp only [write, quote, List.length_append, List.length_cons] at hfuel
    omega
  obtain ⟨fuel, rfl⟩ := Nat.exists_eq_add_of_lt hpos
  have hread := readString_quote s r ((s.toList.flatMap escapeChar ++ '"' :: r).length + 1) (by
    have := length_le_escaped s
    rw [List.length_append]
    omega)
  have htext : write (.str s) ++ r = '"' :: (s.toList.flatMap escapeChar ++ '"' :: r) := by simp [write, quote]
  rw [htext, Nat.zero_add, readValue, skipBlanks_opens (by decide)]
  simp only [Shape.isSkipped, hread, Option.map_some]

theorem readItems_items {items : List Json} (hreads : ∀ v ∈ items, Reads v) (hne : items ≠ []) (fuel i : Nat)
    (r : List Char) (hfuel : 2 * (writeItems items).length < fuel) :
    readItems fuel .whole i (writeItems items ++ ']' :: r) = some (items, r) := by
  induction items generalizing fuel i with
  | nil => exact absurd rfl hne
  | cons v items ih =>
    obtain ⟨fuel, rfl⟩ := Nat.exists_eq_add_of_lt (Nat.zero_lt_of_lt hfuel)
    have hv : Reads v := hreads v List.mem_cons_self
    rw [Nat.zero_add] at hfuel ⊢
    cases items with
    | nil =>
      simp only [writeItems] at hfuel ⊢
      rw [readItems, Shape.item, hv fuel _ (ends_bracket r) (by omega)]
      rfl
    | cons w items =>
      simp only [writeItems, List.length_append, List.length_cons] at hfuel
      have hrest := ih (fun u hu => hreads u (List.mem_cons_of_mem _ hu)) (List.cons_ne_nil _ _) fuel (i + 1) (by omega)
      rw [writeItems, List.append_assoc, List.cons_append, readItems, Shape.item,
        hv fuel _ (ends_comma _) (by omega), Option.bind_eq_bind, Option.bind_some]
      change (readItems fuel .whole (i + 1) (writeItems (w :: items) ++ ']' :: r)).bind _ = _
      rw [hrest]
      rfl

/-- A member is read up to what follows it. -/
theorem readMembers_member (k : String) {v : Json} (hv : Reads v) {fuel : Nat} {r : List Char} (hr : Ends r)
    (hfuel : 2 * v.write.length ≤ fuel) :
    readMembers (fuel + 1) .whole (quote k ++ ':' :: (v.write ++ r)) =
      match skipBlanks r with
      | '\x7d' :: r => pure ([(k, v)], r)
      | ',' :: r => do
        let (l, r) ← readMembers fuel .whole r
        pure ((k, v) :: l, r)
      | _ => none := by
  have htext : quote k ++ ':' :: (v.write ++ r) =
      '"' :: (k.toList.flatMap escapeChar ++ '"' :: ':' :: (v.write ++ r)) := by simp [quote]
  have hkey := readString_quote k (':' :: (v.write ++ r))
    ((k.toList.flatMap escapeChar ++ '"' :: ':' :: (v.write ++ r)).length + 1) (by
      have := length_le_escaped k
      rw [List.length_append]
      omega)
  rw [htext, readMembers, skipBlanks_opens (by decide)]
  simp only [Shape.isSkipped, hkey, Option.bind_eq_bind, Option.bind_some]
  rw [skipBlanks_opens (by decide)]
  change (readValue fuel .whole (v.write ++ r)).bind _ = _
  rw [hv fuel r hr hfuel]
  rfl

theorem readMembers_members {members : List (String × Json)} (hreads : ∀ m ∈ members, Reads m.2) (hne : members ≠ [])
    (fuel : Nat) (r : List Char) (hfuel : 2 * (writeMembers members).length < fuel) :
    readMembers fuel .whole (writeMembers members ++ '\x7d' :: r) = some (members, r) := by
  induction members generalizing fuel with
  | nil => exact absurd rfl hne
  | cons m members ih =>
    obtain ⟨k, v⟩ := m
    obtain ⟨fuel, rfl⟩ := Nat.exists_eq_add_of_lt (Nat.zero_lt_of_lt hfuel)
    have hv : Reads v := hreads (k, v) List.mem_cons_self
    rw [Nat.zero_add] at hfuel ⊢
    cases members with
    | nil =>
      simp only [writeMembers, List.length_append, List.length_cons] at hfuel ⊢
      rw [List.append_assoc, List.cons_append, readMembers_member k hv (ends_brace r) (by omega)]
      rfl
    | cons n members =>
      simp only [writeMembers, List.length_append, List.length_cons] at hfuel
      have hrest := ih (fun u hu => hreads u (List.mem_cons_of_mem _ hu)) (List.cons_ne_nil _ _) fuel (by omega)
      rw [writeMembers, List.append_assoc, List.append_assoc, List.cons_append, List.cons_append,
        readMembers_member k hv (ends_comma _) (by omega)]
      change (readMembers fuel .whole (writeMembers (n :: members) ++ '\x7d' :: r)).bind _ = _
      rw [hrest]
      rfl

theorem writeItems_cons (v : Json) (items : List Json) : ∃ t, writeItems (v :: items) = v.write ++ t := by
  cases items with
  | nil => exact ⟨[], (List.append_nil _).symm⟩
  | cons w items => exact ⟨_, rfl⟩

theorem writeMembers_cons (m : String × Json) (members : List (String × Json)) :
    ∃ t, writeMembers (m :: members) = '"' :: t := by
  cases members with
  | nil => exact ⟨_, rfl⟩
  | cons n members => exact ⟨_, rfl⟩

theorem reads_arr {items : List Json} (hexact : ∀ v ∈ items, v.Exact) (hreads : ∀ v ∈ items, Reads v) :
    Reads (.arr items) := by
  intro fuel r _ hfuel
  simp only [write, List.cons_append, List.length_cons, List.length_append] at hfuel ⊢
  obtain ⟨fuel, rfl⟩ := Nat.exists_eq_add_of_lt (show 0 < fuel by omega)
  rw [Nat.zero_add, readValue, skipBlanks_opens (by decide)]
  cases items with
  | nil => rfl
  | cons v items =>
    have hitems := readItems_items hreads (List.cons_ne_nil _ _) fuel 0 r (by omega)
    obtain ⟨c, t, hfirst, hc⟩ := (hexact v List.mem_cons_self).opens
    obtain ⟨t', hitem⟩ := writeItems_cons v items
    rw [List.append_assoc, List.singleton_append]
    rw [hitem, hfirst, List.cons_append, List.cons_append] at hitems ⊢
    simp only [skipBlanks_opens hc]
    split
    · rename_i h
      exact absurd (List.cons.inj h).1 hc.2.2.2.2.1
    · rw [hitems]
      rfl

theorem reads_obj {members : List (String × Json)} (hreads : ∀ m ∈ members, Reads m.2) : Reads (.obj members) := by
  intro fuel r _ hfuel
  simp only [write, List.cons_append, List.length_cons, List.length_append] at hfuel ⊢
  obtain ⟨fuel, rfl⟩ := Nat.exists_eq_add_of_lt (show 0 < fuel by omega)
  rw [Nat.zero_add, readValue, skipBlanks_opens (by decide)]
  cases members with
  | nil => rfl
  | cons m members =>
    have hmembers := readMembers_members hreads (List.cons_ne_nil _ _) fuel r (by omega)
    obtain ⟨t, heq⟩ := writeMembers_cons m members
    rw [List.append_assoc, List.singleton_append]
    rw [heq, List.cons_append] at hmembers ⊢
    simp only [skipBlanks_opens (show Opens '"' by decide)]
    exact congrArg (Option.map fun p => (Json.obj p.1, p.2)) hmembers

theorem Exact.reads (h : v.Exact) : Reads v := by
  induction h with
  | null =>
    intro fuel r _ hfuel
    obtain ⟨fuel, rfl⟩ := Nat.exists_eq_add_of_lt (show 0 < fuel from Nat.lt_of_lt_of_le (by decide) hfuel)
    rfl
  | bool b =>
    intro fuel r _ hfuel
    obtain ⟨fuel, rfl⟩ := Nat.exists_eq_add_of_lt (show 0 < fuel from Nat.lt_of_lt_of_le (by cases b <;> decide) hfuel)
    cases b <;> rfl
  | int n => exact reads_int n
  | str s => exact reads_str s
  | arr h ih => exact reads_arr h ih
  | obj _ ih => exact reads_obj ih

/-- The compact text of a value without decimal numbers is read as that value. -/
theorem parse?_compact (h : v.Exact) : parse? .whole v.compact = some v := by
  have hread := h.reads (2 * v.write.length + 2) [] trivial (by omega)
  rw [List.append_nil] at hread
  rw [parse?, compact, String.toList_ofList]
  dsimp only
  rw [hread]
  rfl

theorem compact_inj {w : Json} (hv : v.Exact) (hw : w.Exact) (h : v.compact = w.compact) : v = w := by
  have hread := parse?_compact hv
  rw [h, parse?_compact hw] at hread
  exact (Option.some.inj hread).symm

end Adventure.Json
