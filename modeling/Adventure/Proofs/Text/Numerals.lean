import Adventure.Proofs.Text.Lines
import Mathlib.Data.List.Forall2
import Mathlib.Data.Nat.Digits.Lemmas

/-! Numbers as they are written, in one of three bases, and how they are read. A zero in front is a digit of its own and
opens the longer prefix of hexadecimal numbers as well, so what follows a number decides where it ends: a lone zero goes
on as a hexadecimal number if it can. -/

namespace Adventure.Text

/-! ### Digits -/

def smallDigits : List Char := ['0', '1', '2', '3', '4', '5', '6', '7', '8', '9', 'a', 'b', 'c', 'd', 'e', 'f']

def capitalDigits : List Char := ['0', '1', '2', '3', '4', '5', '6', '7', '8', '9', 'A', 'B', 'C', 'D', 'E', 'F']

/-- The character is the digit of a value, in either case. -/
def DigitOf (c : Char) (d : Nat) : Prop := smallDigits[d]? = some c ∨ capitalDigits[d]? = some c

instance (c : Char) (d : Nat) : Decidable (DigitOf c d) := inferInstanceAs (Decidable (_ ∨ _))

variable {base m d : Nat} {c : Char} {s r : List Char}

theorem DigitOf.lt (h : DigitOf c d) : d < 16 := by
  obtain h | h := h
  · exact (List.getElem?_eq_some_iff.mp h).1
  · exact (List.getElem?_eq_some_iff.mp h).1

/-- A character of one byte that is neither a blank nor a sign nor part of a prefix. -/
structure IsDigit (c : Char) : Prop where
  size : c.utf8Size = 1
  blank : isBlank c = false
  sign : c ≠ '-' ∧ c ≠ '+'
  hex : c ≠ 'x' ∧ c ≠ 'X'

instance (c : Char) : Decidable (IsDigit c) :=
  decidable_of_iff (c.utf8Size = 1 ∧ isBlank c = false ∧ (c ≠ '-' ∧ c ≠ '+') ∧ c ≠ 'x' ∧ c ≠ 'X')
    ⟨fun h => ⟨h.1, h.2.1, h.2.2.1, h.2.2.2⟩, fun h => ⟨h.size, h.blank, h.sign, h.hex⟩⟩

theorem DigitOf.isDigit (h : DigitOf c d) : IsDigit c := by
  have hall : (smallDigits ++ capitalDigits).all (fun c => decide (IsDigit c)) = true := by decide
  have hmem : c ∈ smallDigits ++ capitalDigits := List.mem_append.mpr (h.imp List.mem_of_getElem? List.mem_of_getElem?)
  exact of_decide_eq_true (List.all_eq_true.mp hall c hmem)

theorem digit?_of_digitOf (h : DigitOf c d) : digit? 16 c = some d := by
  have hsmall : ∀ d < 16, (smallDigits[d]?).bind (digit? 16) = some d := by decide
  have hcapital : ∀ d < 16, (capitalDigits[d]?).bind (digit? 16) = some d := by decide
  have hd := h.lt
  obtain h | h := h
  · have hvalue := hsmall d hd
    rwa [h] at hvalue
  · have hvalue := hcapital d hd
    rwa [h] at hvalue

theorem digitOf_of_digit? (h : digit? 16 c = some d) : DigitOf c d := by
  have hchar {k n : Nat} (hc : c.toNat - k = n) (hk : k ≤ c.toNat) : c = Char.ofNat (k + n) := by
    rw [← hc, Nat.add_sub_cancel' hk, Char.ofNat_toNat]
  have hten : ∀ n < 16, n < 10 → DigitOf (Char.ofNat (48 + n)) n := by decide
  have hsmall : ∀ n < 16, 10 ≤ n → DigitOf (Char.ofNat (87 + n)) n := by decide
  have hcapital : ∀ n < 16, 10 ≤ n → DigitOf (Char.ofNat (55 + n)) n := by decide
  simp only [digit?, Option.filter_eq_some_iff, decide_eq_true_eq] at h
  obtain ⟨hvalue, hd⟩ := h
  simp only [Char.le_def, UInt32.le_iff_toNat_le] at hvalue
  change (if 48 ≤ c.toNat ∧ c.toNat ≤ 57 then _ else if 97 ≤ c.toNat ∧ c.toNat ≤ 122 then _
    else if 65 ≤ c.toNat ∧ c.toNat ≤ 90 then _ else _) = _ at hvalue
  split at hvalue
  · have hn := Option.some.inj hvalue
    rw [hchar hn (by omega)]
    exact hten d hd (by omega)
  split at hvalue
  · have hn := Option.some.inj hvalue
    rw [hchar hn (by omega)]
    exact hsmall d hd (by omega)
  split at hvalue
  · have hn := Option.some.inj hvalue
    rw [hchar hn (by omega)]
    exact hcapital d hd (by omega)
  · cases hvalue

theorem digit?_eq_some (hbase : base ≤ 16) : digit? base c = some d ↔ DigitOf c d ∧ d < base := by
  have hfilter : digit? base c = (digit? 16 c).filter (· < base) := by
    simp only [digit?, Option.filter_filter]
    congr 1
    funext v
    rw [← Bool.decide_and]
    exact decide_eq_decide.mpr ⟨fun h => ⟨by omega, h⟩, And.right⟩
  rw [hfilter, Option.filter_eq_some_iff, decide_eq_true_eq]
  exact and_congr_left fun _ => ⟨digitOf_of_digit?, digit?_of_digitOf⟩

/-! ### Runs of digits -/

/-- The characters are digits in a base, the highest one first, and `m` is the number that they make. -/
def Digits (base : Nat) (s : List Char) (m : Nat) : Prop :=
  ∃ ds, List.Forall₂ (fun c d => DigitOf c d ∧ d < base) s ds ∧ m = Nat.ofDigits base ds.reverse

/-- The text does not go on with a digit of the base. -/
def NoDigit (base : Nat) (r : List Char) : Prop := ∀ c ∈ r.head?, ∀ d, DigitOf c d → base ≤ d

theorem NoDigit.mono {base' : Nat} (h : NoDigit base r) (hle : base' ≤ base) : NoDigit base' r :=
  fun c hc d hd => Nat.le_trans hle (h c hc d hd)

theorem digits_nil : Digits base [] 0 := ⟨[], .nil, rfl⟩

theorem Digits.cons (hd : DigitOf c d) (hlt : d < base) (h : Digits base s m) :
    Digits base (c :: s) (m + base ^ s.length * d) := by
  obtain ⟨ds, hs, rfl⟩ := h
  exact ⟨d :: ds, .cons ⟨hd, hlt⟩ hs, by rw [Nat.ofDigits_reverse_cons, hs.length_eq]⟩

theorem digits_cons_iff :
    Digits base (c :: s) m ↔ ∃ d n, DigitOf c d ∧ d < base ∧ Digits base s n ∧ m = n + base ^ s.length * d := by
  constructor
  · rintro ⟨_, ⟨⟩ | ⟨⟨hd, hlt⟩, hs⟩, rfl⟩
    refine ⟨_, _, hd, hlt, ⟨_, hs, rfl⟩, ?_⟩
    rw [Nat.ofDigits_reverse_cons, hs.length_eq]
  · rintro ⟨d, n, hd, hlt, hs, rfl⟩
    exact hs.cons hd hlt

theorem Digits.isDigit (h : Digits base s m) : ∀ c ∈ s, IsDigit c := by
  induction s generalizing m with
  | nil => exact nofun
  | cons c s ih =>
    obtain ⟨d, n, hd, -, hs, -⟩ := digits_cons_iff.mp h
    exact List.forall_mem_cons.mpr ⟨hd.isDigit, ih hs⟩

/-- Zeros are digits of any base. -/
theorem Digits.of_zero {base' : Nat} (h : Digits base s 0) (hbase : 0 < base) (hbase' : 0 < base') : Digits base' s 0 := by
  induction s with
  | nil => exact digits_nil
  | cons c s ih =>
    obtain ⟨d, n, hd, -, hs, hm⟩ := digits_cons_iff.mp h
    obtain ⟨rfl, hzero⟩ := Nat.add_eq_zero_iff.mp hm.symm
    obtain hpow | rfl := Nat.mul_eq_zero.mp hzero
    · exact absurd hpow (Nat.pow_pos hbase).ne'
    · exact (ih hs).cons hd hbase'

theorem readDigits_stop (hbase : base ≤ 16) (h : NoDigit base r) (value count : Nat) :
    readDigits base value count r = (value, count) := by
  cases r with
  | nil => rfl
  | cons c r =>
    have hnone : digit? base c = none := by
      rw [Option.eq_none_iff_forall_ne_some]
      intro d hd
      obtain ⟨hd, hlt⟩ := (digit?_eq_some hbase).mp hd
      exact absurd hlt (Nat.not_lt.mpr (h c rfl d hd))
    rw [readDigits, hnone]

/-- All digits of a run are taken, each of them once. -/
theorem readDigits_run (hbase : base ≤ 16) (h : Digits base s m) (hr : NoDigit base r) (value count : Nat) :
    readDigits base value count (s ++ r) = (value * base ^ s.length + m, count + s.length) := by
  induction s generalizing m value count with
  | nil =>
    obtain ⟨_, ⟨⟩, rfl⟩ := h
    rw [List.nil_append, readDigits_stop hbase hr, List.length_nil, Nat.pow_zero, Nat.mul_one]
    rfl
  | cons c s ih =>
    obtain ⟨d, n, hd, hlt, hs, rfl⟩ := digits_cons_iff.mp h
    rw [List.cons_append, readDigits, (digit?_eq_some hbase).mpr ⟨hd, hlt⟩]
    simp only
    rw [ih hs, List.length_cons, Nat.pow_succ]
    refine Prod.ext ?_ (by simp only; omega)
    simp only
    ring

/-- A text opens with a run of digits that does not go on, which may be empty. -/
theorem exists_digits (base : Nat) (t : List Char) : ∃ s r m, t = s ++ r ∧ Digits base s m ∧ NoDigit base r := by
  induction t with
  | nil => exact ⟨[], [], 0, rfl, digits_nil, nofun⟩
  | cons c t ih =>
    by_cases hc : NoDigit base (c :: t)
    · exact ⟨[], c :: t, 0, rfl, digits_nil, hc⟩
    · obtain ⟨d, hd, hlt⟩ : ∃ d, DigitOf c d ∧ d < base := by
        simpa [NoDigit] using hc
      obtain ⟨s, r, m, rfl, hs, hr⟩ := ih
      exact ⟨c :: s, r, _, rfl, hs.cons hd hlt, hr⟩

/-! ### Numbers in three bases -/

/-- A number as it is written: its base, its characters, and what it is. -/
inductive Written : Nat → List Char → Nat → Prop
  | decimal {s : List Char} {m : Nat} (h : Digits 10 s m) (hs : s ≠ []) (hzero : s.head? = some '0' → m = 0) : Written 10 s m
  | octal {s : List Char} {m : Nat} (h : Digits 8 ('0' :: s) m) : Written 8 ('0' :: s) m
  | hex {x : Char} {s : List Char} {m : Nat} (hx : x = 'x' ∨ x = 'X') (h : Digits 16 s m) (hs : s ≠ []) :
    Written 16 ('0' :: x :: s) m

/-- A number of the given characters ends in front of `r`: there is no further digit, and a lone zero does not open a
hexadecimal number. -/
structure Closes (base : Nat) (s r : List Char) : Prop where
  digit : NoDigit base r
  zero : s = ['0'] → ∀ x t, r = x :: t → (x = 'x' ∨ x = 'X') → NoDigit 16 t

theorem readBase_hex {x : Char} (hx : x = 'x' ∨ x = 'X') (hd : DigitOf c d) (t : List Char) :
    readBase ('0' :: x :: c :: t) = (16, c :: t) := by
  have hdigit : (digit? 16 c).isSome = true := by rw [digit?_of_digitOf hd]; rfl
  rw [readBase, if_pos ⟨hx, hdigit⟩]

theorem readBase_octal {t : List Char} (h : ∀ x u, t = x :: u → (x = 'x' ∨ x = 'X') → NoDigit 16 u) :
    readBase ('0' :: t) = (8, '0' :: t) := by
  match t with
  | [] => rfl
  | [x] => rfl
  | x :: c :: u =>
    rw [readBase, if_neg]
    rintro ⟨hx, hdigit⟩
    obtain ⟨d, hd⟩ := Option.isSome_iff_exists.mp hdigit
    have hd := digitOf_of_digit? hd
    exact absurd hd.lt (Nat.not_lt.mpr (h x (c :: u) rfl hx c rfl d hd))

theorem readBase_decimal (hc : c ≠ '0') (t : List Char) : readBase (c :: t) = (10, c :: t) := by
  unfold readBase
  split
  · exact absurd (List.cons.inj ‹_›).1 hc
  · exact absurd (List.cons.inj ‹_›).1 hc
  · rfl

theorem readBase_zero (h : Digits 8 ('0' :: s) m) (hr : Closes base ('0' :: s) r) :
    readBase ('0' :: (s ++ r)) = (8, '0' :: (s ++ r)) := by
  apply readBase_octal
  intro x u hu hx
  cases s with
  | nil => exact hr.zero rfl x u hu hx
  | cons c s =>
    have hc := h.isDigit c (by simp)
    obtain ⟨rfl, -⟩ := List.cons.inj hu
    exact absurd hx (not_or.mpr hc.hex)

/-- The digits of a number in the base that is told from its prefix; a zero in front is one of them. -/
theorem readBase_written (h : Written base s m) (hr : Closes base s r) :
    ∃ base' q ds, s = q ++ ds ∧ readBase (s ++ r) = (base', ds ++ r) ∧ base' ≤ 16 ∧ Digits base' ds m ∧
      NoDigit base' r ∧ ds ≠ [] := by
  cases h with
  | decimal h hs hzero =>
    obtain ⟨c, s, rfl⟩ := List.exists_cons_of_ne_nil hs
    by_cases hc : c = '0'
    · subst hc
      obtain rfl := hzero rfl
      have hdigits : Digits 8 ('0' :: s) 0 := h.of_zero (by decide) (by decide)
      exact ⟨8, [], '0' :: s, rfl, readBase_zero hdigits hr, by decide, hdigits, hr.digit.mono (by decide), by simp⟩
    · exact ⟨10, [], c :: s, rfl, readBase_decimal hc _, by decide, h, hr.digit, by simp⟩
  | @octal s _ h => exact ⟨8, [], '0' :: s, rfl, readBase_zero h hr, by decide, h, hr.digit, by simp⟩
  | @hex x s _ hx h hs =>
    obtain ⟨c, s, rfl⟩ := List.exists_cons_of_ne_nil hs
    obtain ⟨d, -, hd, -⟩ := digits_cons_iff.mp h
    exact ⟨16, ['0', x], c :: s, rfl, readBase_hex hx hd _, by decide, h, hr.digit, by simp⟩

theorem Written.size (h : Written base s m) : ∀ c ∈ s, c.utf8Size = 1 := by
  cases h with
  | decimal h _ _ => exact fun c hc => (h.isDigit c hc).size
  | octal h => exact fun c hc => (h.isDigit c hc).size
  | hex hx h _ =>
    refine List.forall_mem_cons.mpr ⟨by decide, List.forall_mem_cons.mpr ⟨?_, fun c hc => (h.isDigit c hc).size⟩⟩
    obtain rfl | rfl := hx <;> decide

/-- A text opens with a number of one of the bases if it opens with a digit. -/
theorem exists_written {t : List Char} (ht : ¬ NoDigit 10 t) :
    ∃ base s m r, t = s ++ r ∧ Written base s m ∧ Closes base s r := by
  obtain ⟨c, t, rfl⟩ : ∃ c u, t = c :: u := by
    cases t with
    | nil => exact absurd nofun ht
    | cons c t => exact ⟨c, t, rfl⟩
  obtain ⟨d, hd, hlt⟩ : ∃ d, DigitOf c d ∧ d < 10 := by
    simpa [NoDigit] using ht
  by_cases hc : c = '0'
  · subst hc
    by_cases hprefix : ∀ x u, t = x :: u → (x = 'x' ∨ x = 'X') → NoDigit 16 u
    · obtain ⟨s, r, m, rfl, hs, hr⟩ := exists_digits 8 t
      refine ⟨8, '0' :: s, _, r, rfl, .octal (hs.cons (d := 0) (.inl rfl) (by decide)), hr, ?_⟩
      intro hlone x u hu hx
      obtain rfl : s = [] := (List.cons.inj hlone).2
      exact hprefix x u hu hx
    · push Not at hprefix
      obtain ⟨x, u, rfl, hx, hu⟩ := hprefix
      obtain ⟨s, r, m, rfl, hs, hr⟩ := exists_digits 16 u
      have hne : s ≠ [] := by
        rintro rfl
        exact hu hr
      exact ⟨16, '0' :: x :: s, m, r, rfl, .hex hx hs hne, hr, nofun⟩
  · obtain ⟨s, r, m, rfl, hs, hr⟩ := exists_digits 10 t
    refine ⟨10, c :: s, _, r, rfl, .decimal (hs.cons hd hlt) (by simp) ?_, hr, ?_⟩
    · exact fun h => absurd (Option.some.inj h) hc
    · exact fun h => absurd (List.cons.inj h).1 hc

/-- Any number can be written with digits of a base. -/
theorem exists_digits_of (hbase : 1 < base) (hle : base ≤ 16) (m : Nat) :
    ∃ s, Digits base s m ∧ s ≠ [] ∧ (s.head? = some '0' → m = 0) := by
  by_cases hm : m = 0
  · subst hm
    exact ⟨['0'], digits_nil.cons (d := 0) (.inl rfl) (by omega), by simp, fun _ => rfl⟩
  · have hne : Nat.digits base m ≠ [] := Nat.digits_ne_nil_iff_ne_zero.mpr hm
    have hdigit (d : Nat) (hd : d ∈ Nat.digits base m) : DigitOf (smallDigits.getD d '0') d ∧ d < base := by
      have hlt := Nat.digits_lt_base hbase hd
      have hlen : d < smallDigits.length := Nat.lt_of_lt_of_le hlt hle
      exact ⟨.inl (by rw [List.getElem?_eq_getElem hlen, List.getElem_eq_getD '0']), hlt⟩
    refine ⟨(Nat.digits base m).reverse.map (smallDigits.getD · '0'), ⟨(Nat.digits base m).reverse, ?_, ?_⟩,
      by simpa using hne, ?_⟩
    · rw [List.forall₂_map_left_iff, List.forall₂_same]
      exact fun d hd => hdigit d (List.mem_reverse.mp hd)
    · rw [List.reverse_reverse, Nat.ofDigits_digits]
    · intro hzero
      rw [List.head?_map, List.head?_reverse, List.getLast?_eq_some_getLast hne, Option.map_some, Option.some.injEq] at hzero
      obtain ⟨hd, hlt⟩ := hdigit _ (List.getLast_mem hne)
      rw [hzero] at hd
      have hvalue := digit?_of_digitOf hd
      exact absurd (Option.some.inj hvalue).symm (Nat.getLast_digit_ne_zero base hm)

/-- Any number can be written in each of the bases. -/
theorem exists_written_of (m : Nat) : ∀ base ∈ [8, 10, 16], ∃ s, Written base s m := by
  obtain ⟨s, hs, -, -⟩ := @exists_digits_of 8 (by decide) (by decide) m
  obtain ⟨t, ht, hne, hzero⟩ := @exists_digits_of 10 (by decide) (by decide) m
  obtain ⟨u, hu, hne', -⟩ := @exists_digits_of 16 (by decide) (by decide) m
  have hoctal := hs.cons (d := 0) (.inl rfl) (by decide)
  rw [Nat.mul_zero, Nat.add_zero] at hoctal
  simp only [List.mem_cons, List.not_mem_nil, or_false, forall_eq_or_imp, forall_eq]
  exact ⟨⟨_, .octal hoctal⟩, ⟨_, .decimal ht hne hzero⟩, ⟨_, .hex (.inl rfl) hu hne'⟩⟩

/-! ### Blanks and signs -/

/-- There may be a sign. -/
inductive IsSign : List Char → Bool → Prop
  | none : IsSign [] false
  | plus : IsSign ['+'] false
  | minus : IsSign ['-'] true

/-- Blanks in front of `x`, and perhaps a sign behind them; without one, `x` opens with neither. -/
structure Front (b mark : List Char) (negative : Bool) (x : List Char) : Prop where
  blanks : IsBlanks b
  sign : IsSign mark negative
  fresh : mark = [] → ∀ c ∈ x.head?, isBlank c = false ∧ c ≠ '-' ∧ c ≠ '+'

def signed (negative : Bool) (m : Nat) : Int := if negative then -(m : Int) else m

variable {b mark x : List Char} {negative : Bool}

theorem Front.dropBlanks (h : Front b mark negative x) : (b ++ (mark ++ x)).dropWhile isBlank = mark ++ x := by
  rw [List.dropWhile_append_of_pos h.blanks]
  obtain ⟨-, hsign, hfresh⟩ := h
  cases hsign with
  | none =>
    cases x with
    | nil => rfl
    | cons c x => exact List.dropWhile_cons_of_neg (by simp [(hfresh rfl c rfl).1])
  | plus => rfl
  | minus => rfl

theorem Front.readSign (h : Front b mark negative x) : readSign (mark ++ x) = (negative, x) := by
  obtain ⟨-, hsign, hfresh⟩ := h
  cases hsign with
  | none =>
    cases x with
    | nil => rfl
    | cons c x =>
      obtain ⟨-, hminus, hplus⟩ := hfresh rfl c rfl
      simp only [List.nil_append, Text.readSign]
      split <;> simp_all
  | plus => rfl
  | minus => rfl

theorem exists_front (t : List Char) : ∃ b mark negative x, t = b ++ (mark ++ x) ∧ Front b mark negative x := by
  have hsplit : t = t.takeWhile isBlank ++ t.dropWhile isBlank := List.takeWhile_append_dropWhile.symm
  have hb : IsBlanks (t.takeWhile isBlank) := fun c hc => List.all_eq_true.mp List.all_takeWhile c hc
  generalize t.takeWhile isBlank = b at hsplit hb
  cases hx : t.dropWhile isBlank with
  | nil =>
    rw [hx] at hsplit
    exact ⟨b, [], false, [], hsplit, hb, .none, nofun⟩
  | cons c x =>
    rw [hx] at hsplit
    have hc := head_dropWhile hx
    by_cases hminus : c = '-'
    · exact ⟨b, ['-'], true, x, hminus ▸ hsplit, hb, .minus, nofun⟩
    by_cases hplus : c = '+'
    · exact ⟨b, ['+'], false, x, hplus ▸ hsplit, hb, .plus, nofun⟩
    refine ⟨b, [], false, c :: x, hsplit, hb, .none, fun _ d hd => ?_⟩
    obtain rfl := Option.some.inj hd
    exact ⟨hc, hminus, hplus⟩

theorem Written.front (h : Written base s m) (hb : IsBlanks b) (hsign : IsSign mark negative) (r : List Char) :
    Front b mark negative (s ++ r) := by
  refine ⟨hb, hsign, fun _ c hc => ?_⟩
  have hdigit : IsDigit c := by
    cases h with
    | decimal h hs _ =>
      obtain ⟨d, s, rfl⟩ := List.exists_cons_of_ne_nil hs
      obtain rfl := Option.some.inj hc
      exact h.isDigit d (by simp)
    | octal _ => obtain rfl := Option.some.inj hc; decide
    | hex _ _ _ => obtain rfl := Option.some.inj hc; decide
  exact ⟨hdigit.blank, hdigit.sign⟩

/-! ### What is read -/

theorem readLong_noDigit (h : Front b mark negative x) (hx : NoDigit 10 x) : readLong (b ++ (mark ++ x)) = none := by
  have hbase : readBase x = (10, x) := by
    cases x with
    | nil => rfl
    | cons c x =>
      apply readBase_decimal
      rintro rfl
      exact absurd (hx '0' rfl 0 (.inl rfl)) (by decide)
  simp only [readLong, h.dropBlanks, h.readSign, hbase, readDigits_stop (by decide : 10 ≤ 16) hx]
  rfl

/-- A number is read with all its characters and with what stands in front of it. -/
theorem readLong_written (h : Written base s m) (hr : Closes base s r) (hb : IsBlanks b) (hsign : IsSign mark negative) :
    readLong (b ++ (mark ++ (s ++ r))) =
      if m < 2 ^ 63 then some (signed negative m, (b ++ (mark ++ s)).length) else none := by
  have hfront := h.front hb hsign r
  obtain ⟨base', q, ds, rfl, hread, hle, hds, hstop, hne⟩ := readBase_written h hr
  have hpos := List.length_pos_of_ne_nil hne
  simp only [readLong, hfront.dropBlanks, hfront.readSign, hread, readDigits_run hle hds hstop, Nat.zero_mul,
    Nat.zero_add]
  by_cases hm : m < 2 ^ 63
  · rw [if_pos hm, if_neg (by unfold maxLong; omega)]
    simp only [signed, List.length_append]
    congr 2
    omega
  · rw [if_neg hm, if_pos (.inr (by unfold maxLong; omega))]

theorem readLong_eq_none (t : List Char) :
    readLong t = none ↔ ∃ b mark negative x, t = b ++ (mark ++ x) ∧ Front b mark negative x ∧
      (NoDigit 10 x ∨ ∃ base s m r, x = s ++ r ∧ Written base s m ∧ Closes base s r ∧ 2 ^ 63 ≤ m) := by
  constructor
  · intro hnone
    obtain ⟨b, mark, negative, x, rfl, hfront⟩ := exists_front t
    refine ⟨b, mark, negative, x, rfl, hfront, ?_⟩
    by_cases hx : NoDigit 10 x
    · exact .inl hx
    · obtain ⟨base, s, m, r, rfl, hs, hr⟩ := exists_written hx
      refine .inr ⟨base, s, m, r, rfl, hs, hr, ?_⟩
      by_contra hm
      rw [readLong_written hs hr hfront.blanks hfront.sign, if_pos (Nat.not_le.mp hm)] at hnone
      cases hnone
  · rintro ⟨b, mark, negative, x, rfl, hfront, hx | ⟨base, s, m, r, rfl, hs, hr, hm⟩⟩
    · exact readLong_noDigit hfront hx
    · rw [readLong_written hs hr hfront.blanks hfront.sign, if_neg (Nat.not_lt.mpr hm)]

/-- A number of 32 bits is read as that number, whatever stands behind it, and all others are refused. -/
theorem readInt?_written (h : Written base s m) (hr : Closes base s r) (hb : IsBlanks b) (hsign : IsSign mark negative) :
    readInt? (b ++ (mark ++ (s ++ r))) =
      if -2 ^ 31 ≤ signed negative m ∧ signed negative m < 2 ^ 31 then some (signed negative m) else none := by
  have hfits : Word.fits (signed negative m) = decide (-2 ^ 31 ≤ signed negative m ∧ signed negative m < 2 ^ 31) :=
    decide_eq_decide.mpr (and_congr_right fun _ => Int.lt_add_one_iff.symm)
  rw [readInt?, readLong_written h hr hb hsign]
  by_cases hm : m < 2 ^ 63
  · rw [if_pos hm, Option.map_some, Option.filter_some, hfits]
    simp only [decide_eq_true_eq]
  · have hlarge : ¬ (-2 ^ 31 ≤ signed negative m ∧ signed negative m < 2 ^ 31) := by
      unfold signed
      split <;> omega
    rw [if_neg hm, if_neg hlarge]
    rfl

/-! ### Sums that are checked at each digit -/

/-- The value of the leading digits on top of `value`, and how many there are, if neither a product nor a sum on the way
goes beyond 63 bits. -/
def checkedDigits (base value count : Nat) : List Char → Option (Nat × Nat)
  | [] => some (value, count)
  | c :: r =>
    match digit? base c with
    | some d =>
      if value * base < 2 ^ 63 ∧ value * base + d < 2 ^ 63 then checkedDigits base (value * base + d) (count + 1) r else none
    | none => some (value, count)

theorem le_readDigits (hbase : 0 < base) (value count : Nat) (s : List Char) : value ≤ (readDigits base value count s).1 := by
  induction s generalizing value count with
  | nil => exact Nat.le_refl _
  | cons c s ih =>
    rw [readDigits]
    cases digit? base c with
    | none => exact Nat.le_refl _
    | some d => exact Nat.le_trans (Nat.le_trans (Nat.le_mul_of_pos_right _ hbase) (Nat.le_add_right _ d)) (ih _ _)

/-- Sums only grow, so that it is enough to look at the last one. -/
theorem checkedDigits_eq (hbase : 0 < base) {value : Nat} (hvalue : value < 2 ^ 63) (count : Nat) (s : List Char) :
    checkedDigits base value count s =
      if (readDigits base value count s).1 < 2 ^ 63 then some (readDigits base value count s) else none := by
  induction s generalizing value count with
  | nil => exact (if_pos hvalue).symm
  | cons c s ih =>
    rw [checkedDigits, readDigits]
    cases digit? base c with
    | none => exact (if_pos hvalue).symm
    | some d =>
      simp only
      by_cases hsum : value * base + d < 2 ^ 63
      · rw [if_pos ⟨by omega, hsum⟩, ih hsum]
      · have hle := le_readDigits hbase (value * base + d) (count + 1) s
        rw [if_neg fun h => hsum h.2, if_neg (by omega)]

/-- The number at the start of the text, by sums that are checked. -/
def checkedLong (t : List Char) : Option (Int × Nat) :=
  let (negative, t₁) := readSign (t.dropWhile isBlank)
  let (base, t₂) := readBase t₁
  (checkedDigits base 0 0 t₂).bind fun (value, count) =>
    if count = 0 then none else some (signed negative value, t.length - t₂.length + count)

theorem checkedLong_eq (t : List Char) : checkedLong t = readLong t := by
  have hbase (t : List Char) : 0 < (readBase t).1 := by
    unfold readBase
    split
    · split <;> exact Nat.succ_pos _
    · exact Nat.succ_pos _
    · exact Nat.succ_pos _
  simp only [checkedLong, readLong, checkedDigits_eq (hbase _) (by decide : 0 < 2 ^ 63)]
  generalize readDigits _ 0 0 _ = p
  by_cases hp : p.1 < 2 ^ 63
  · have hmax : ¬ maxLong < p.1 := by unfold maxLong; omega
    rw [if_pos hp, Option.bind_some]
    simp only [hmax, or_false]
    rfl
  · have hmax : maxLong < p.1 := by unfold maxLong; omega
    rw [if_neg hp, Option.bind_none, if_pos (.inr hmax)]

/-! ### Numbers in a text -/

theorem utf8ByteSize_ofList (h : ∀ c ∈ s, c.utf8Size = 1) : (String.ofList s).utf8ByteSize = s.length := by
  induction s with
  | nil => rfl
  | cons c s ih =>
    have hs := ih fun d hd => h d (List.mem_cons_of_mem c hd)
    rw [String.ofList_cons, String.utf8ByteSize_append, String.utf8ByteSize_singleton, h c (by simp), hs, List.length_cons,
      Nat.add_comm]

theorem utf8Size_of_blank (h : isBlank c = true) : c.utf8Size = 1 := by
  simp only [isBlank, Bool.or_eq_true, beq_iff_eq] at h
  obtain (((rfl | rfl) | rfl) | rfl) | rfl := h <;> rfl

theorem IsSign.size (h : IsSign mark negative) : ∀ c ∈ mark, c.utf8Size = 1 := by
  cases h with
  | none => exact nofun
  | plus => exact fun c hc => by rw [List.mem_singleton.mp hc]; rfl
  | minus => exact fun c hc => by rw [List.mem_singleton.mp hc]; rfl

/-- How many bytes a number takes with what stands in front of it. -/
theorem utf8ByteSize_written (h : Written base s m) (hb : IsBlanks b) (hsign : IsSign mark negative) :
    (String.ofList (b ++ (mark ++ s))).utf8ByteSize = (b ++ (mark ++ s)).length := by
  refine utf8ByteSize_ofList fun c hc => ?_
  obtain hc | hc := List.mem_append.mp hc
  · exact utf8Size_of_blank (hb c hc)
  obtain hc | hc := List.mem_append.mp hc
  · exact hsign.size c hc
  · exact h.size c hc

/-- A word with a number of 32 bits is that number, and with any other one it is refused. -/
theorem int_written (h : Written base s m) (hr : Closes base s r) (hb : IsBlanks b) (hsign : IsSign mark negative)
    {t : Tokenizer} (ht : t.word?.1 = some (String.ofList (b ++ (mark ++ (s ++ r))))) :
    t.int.1 = if -2 ^ 31 ≤ signed negative m ∧ signed negative m < 2 ^ 31 then .ok (signed negative m)
      else .error (.integer (String.ofList (b ++ (mark ++ (s ++ r))))) := by
  simp only [Tokenizer.int, ht, Option.getD_some, String.toList_ofList, readInt?_written h hr hb hsign]
  by_cases hfits : -2 ^ 31 ≤ signed negative m ∧ signed negative m < 2 ^ 31
  · rw [if_pos hfits, if_pos hfits]
  · rw [if_neg hfits, if_neg hfits]

/-- Any number can be written in each of the bases. Below the bound of 63 bits it is read as what it is, with as many bytes
as stand in front of the rest, and nothing is read just where there is no digit or where the number reaches the bound;
checking each sum on the way gives the same. Of these numbers, those of 32 bits are taken and all others are refused. -/
theorem readLong_numerals :
    (∀ m, ∀ base ∈ [8, 10, 16], ∃ s, Written base s m) ∧
    (∀ b mark negative base s m r, IsBlanks b → IsSign mark negative → Written base s m → Closes base s r → m < 2 ^ 63 →
      readLong (b ++ (mark ++ (s ++ r))) = some (signed negative m, (String.ofList (b ++ (mark ++ s))).utf8ByteSize)) ∧
    (∀ t, readLong t = none ↔ ∃ b mark negative x, t = b ++ (mark ++ x) ∧ Front b mark negative x ∧
      (NoDigit 10 x ∨ ∃ base s m r, x = s ++ r ∧ Written base s m ∧ Closes base s r ∧ 2 ^ 63 ≤ m)) ∧
    (∀ t, readLong t = checkedLong t) ∧
    ∀ b mark negative base s m r, IsBlanks b → IsSign mark negative → Written base s m → Closes base s r →
      (readInt? (b ++ (mark ++ (s ++ r))) =
        if -2 ^ 31 ≤ signed negative m ∧ signed negative m < 2 ^ 31 then some (signed negative m) else none) ∧
      ∀ t : Tokenizer, t.word?.1 = some (String.ofList (b ++ (mark ++ (s ++ r)))) →
        t.int.1 = if -2 ^ 31 ≤ signed negative m ∧ signed negative m < 2 ^ 31 then .ok (signed negative m)
          else .error (.integer (String.ofList (b ++ (mark ++ (s ++ r))))) := by
  refine ⟨exists_written_of, ?_, readLong_eq_none, fun t => (checkedLong_eq t).symm, ?_⟩
  · intro b mark negative base s m r hb hsign hs hr hm
    rw [readLong_written hs hr hb hsign, if_pos hm, utf8ByteSize_written hs hb hsign]
  · intro b mark negative base s m r hb hsign hs hr
    exact ⟨readInt?_written hs hr hb hsign, fun t ht => int_written hs hr hb hsign ht⟩

theorem noDigit_of_notMem (hc : c ∉ smallDigits ++ capitalDigits) (r : List Char) : NoDigit base (c :: r) := by
  intro c' hc' d hd
  obtain rfl := Option.some.inj hc'
  exact absurd (List.mem_append.mpr (hd.imp List.mem_of_getElem? List.mem_of_getElem?)) hc

/-- A word in quotes, with a bracket behind the number. -/
theorem readLong_numerals_hex :
    readLong " -0x1F)".toList = some (-31, 6) ∧ readLong "0x)".toList = some (0, 1) ∧ readInt? " -0x1F)".toList = some (-31) ∧
      (Tokenizer.int ⟨some "\" -0x1F)\"".toList⟩).1 = .ok (-31) := by
  have hblank : IsBlanks [' '] := by
    intro c hc
    rw [List.mem_singleton.mp hc]
    rfl
  have hdigits : Digits 16 ['1', 'F'] 31 :=
    ⟨[1, 15], .cons ⟨by decide, by decide⟩ (.cons ⟨by decide, by decide⟩ .nil), by decide⟩
  have hhex : Written 16 ['0', 'x', '1', 'F'] 31 := .hex (.inl rfl) hdigits (by decide)
  have hstop : Closes 16 ['0', 'x', '1', 'F'] [')'] := ⟨noDigit_of_notMem (by decide) [], nofun⟩
  have hzero : Written 8 ['0'] 0 := .octal ⟨[0], .cons ⟨by decide, by decide⟩ .nil, by decide⟩
  -- What follows the lone zero is no prefix, since no digit follows.
  have hlone : Closes 8 ['0'] ['x', ')'] := by
    refine ⟨noDigit_of_notMem (by decide) _, fun _ x t ht _ => ?_⟩
    obtain ⟨-, rfl⟩ := List.cons.inj ht
    exact noDigit_of_notMem (by decide) _
  obtain ⟨-, hlong, -, -, hint⟩ := readLong_numerals
  have hword := hint [' '] ['-'] true 16 _ 31 [')'] hblank .minus hhex hstop
  exact ⟨hlong [' '] ['-'] true 16 _ 31 [')'] hblank .minus hhex hstop (by decide),
    hlong [] [] false 8 _ 0 ['x', ')'] nofun .none hzero hlone (by decide), hword.1, hword.2 _ rfl⟩

end Adventure.Text
