import Adventure.Proofs.Bytes.Fields
import Adventure.Text.Encoding
import Mathlib.Algebra.Group.Nat.Defs

/-! Text is read back from its bytes. The decoder takes each character back from the bytes
that encode it, and a text without zeros has no zero byte, so that a field filled up
with zeros holds the text and nothing more. -/

namespace Adventure.Text

namespace Utf8

variable {b : UInt8} {l r : List UInt8}

theorem decode_cons {s : Lead} {n : Nat} (hs : lead? b = some s)
    (h : tail s.more s.lo s.hi s.bits l = (some n, r)) : decode (b :: l) = Char.ofNat n :: decode r := by
  rw [decode, hs]
  simp only
  split <;> rename_i h' <;> rw [h] at h' <;> cases h'
  rfl

theorem tail_zero (lo hi : UInt8) (acc : Nat) (l : List UInt8) : tail 0 lo hi acc l = (some acc, l) := by
  cases l <;> rfl

theorem tail_succ {more acc n : Nat} {lo hi : UInt8} (hlo : lo.toNat ≤ n) (hhi : n ≤ hi.toNat) :
    tail (more + 1) lo hi acc (UInt8.ofNat n :: l) = tail more 0x80 0xBF (acc * 64 + n % 64) l := by
  have hlt := hi.toNat_lt
  have hn : (UInt8.ofNat n).toNat = n := UInt8.toNat_ofNat_of_lt' (by change _ < 2 ^ 8; omega)
  rw [tail, if_pos, hn]
  rw [UInt8.le_iff_toNat_le, UInt8.le_iff_toNat_le, hn]
  exact ⟨hlo, hhi⟩

private theorem ofNat_toNat {n : Nat} (h : n < 256) : (UInt8.ofNat n).toNat = n := UInt8.toNat_ofNat_of_lt' h

theorem lead?_ascii {n : Nat} (h : n < 0x80) : lead? (UInt8.ofNat n) = some ⟨0, 0, 0, n⟩ := by
  simp only [lead?, ofNat_toNat (by omega : n < 256)]
  rw [if_pos h]

theorem lead?_two {n : Nat} (h : 0xC2 ≤ n ∧ n < 0xE0) : lead? (UInt8.ofNat n) = some ⟨1, 0x80, 0xBF, n % 32⟩ := by
  simp only [lead?, ofNat_toNat (by omega : n < 256)]
  rw [if_neg (by omega), if_neg (by omega), if_pos h.2]

/-- The byte `m` may follow a lead byte. -/
def Lead.Allows (s : Lead) (m : Nat) : Prop := s.lo.toNat ≤ m ∧ m ≤ s.hi.toNat

theorem lead?_three {n m : Nat} (h : 0xE0 ≤ n ∧ n < 0xF0) (hm : 0x80 ≤ m ∧ m ≤ 0xBF) (hlow : n = 0xE0 → 0xA0 ≤ m)
    (hhigh : n = 0xED → m ≤ 0x9F) :
    ∃ s, lead? (UInt8.ofNat n) = some s ∧ s.more = 2 ∧ s.bits = n % 16 ∧ s.Allows m := by
  simp only [lead?, ofNat_toNat (by omega : n < 256)]
  rw [if_neg (by omega), if_neg (by omega), if_neg (by omega)]
  by_cases h0 : n = 0xE0
  · rw [if_pos h0]
    exact ⟨_, rfl, rfl, h0 ▸ rfl, hlow h0, hm.2⟩
  · rw [if_neg h0]
    by_cases hD : n = 0xED
    · rw [if_pos hD]
      exact ⟨_, rfl, rfl, hD ▸ rfl, hm.1, hhigh hD⟩
    · rw [if_neg hD, if_pos h.2]
      exact ⟨_, rfl, rfl, rfl, hm⟩

theorem lead?_four {n m : Nat} (h : 0xF0 ≤ n ∧ n ≤ 0xF4) (hm : 0x80 ≤ m ∧ m ≤ 0xBF) (hlow : n = 0xF0 → 0x90 ≤ m)
    (hhigh : n = 0xF4 → m ≤ 0x8F) :
    ∃ s, lead? (UInt8.ofNat n) = some s ∧ s.more = 3 ∧ s.bits = n % 8 ∧ s.Allows m := by
  simp only [lead?, ofNat_toNat (by omega : n < 256)]
  rw [if_neg (by omega), if_neg (by omega), if_neg (by omega), if_neg (by omega), if_neg (by omega),
    if_neg (by omega)]
  by_cases h0 : n = 0xF0
  · rw [if_pos h0]
    exact ⟨_, rfl, rfl, h0 ▸ rfl, hlow h0, hm.2⟩
  · rw [if_neg h0]
    by_cases h4 : n = 0xF4
    · rw [if_neg (by omega), if_pos h4]
      exact ⟨_, rfl, rfl, h4 ▸ rfl, hm.1, hhigh h4⟩
    · rw [if_pos (by omega)]
      exact ⟨_, rfl, rfl, rfl, hm⟩

/-- A continuation byte gives six bits. -/
private theorem tail_next (more acc v : Nat) (l : List UInt8) :
    tail (more + 1) 0x80 0xBF acc (UInt8.ofNat (v % 64 + 128) :: l) =
      tail more 0x80 0xBF (acc * 64 + v % 64) l := by
  rw [tail_succ (by simp) (by simp; omega), (by omega : (v % 64 + 128) % 64 = v % 64)]

/-- The bytes of a character are read as that character. -/
theorem decode_utf8EncodeChar (c : Char) (l : List UInt8) :
    decode (String.utf8EncodeChar c ++ l) = c :: decode l := by
  have hv : Char.ofNat c.val.toNat = c := Char.ofNat_toNat c
  have hvalid : c.val.toNat < 0xD800 ∨ 0xDFFF < c.val.toNat ∧ c.val.toNat < 0x110000 := c.valid
  unfold String.utf8EncodeChar
  generalize c.val.toNat = v at hv hvalid
  simp only
  -- The cases are the lengths of the encoding.
  split
  next h => rw [List.singleton_append, decode_cons (lead?_ascii (by omega)) (tail_zero _ _ _ _), hv]
  split
  next h =>
    have hsum : (v / 64 % 32 + 192) % 32 * 64 + v % 64 = v := by omega
    have htail := tail_next 0 ((v / 64 % 32 + 192) % 32) v l
    rw [hsum, tail_zero] at htail
    exact (decode_cons (lead?_two (by omega)) htail).trans (by rw [hv])
  split
  next h =>
    obtain ⟨s, hs, hmore, hbits, hlo, hhi⟩ :=
      lead?_three (n := v / 4096 % 16 + 224) (m := v / 64 % 64 + 128) (by omega) (by omega) (by omega) (by omega)
    have hsum : (s.bits * 64 + (v / 64 % 64 + 128) % 64) * 64 + v % 64 = v := by omega
    have htail : tail s.more s.lo s.hi s.bits
        (UInt8.ofNat (v / 64 % 64 + 128) :: UInt8.ofNat (v % 64 + 128) :: l) = (some v, l) := by
      rw [hmore, tail_succ hlo hhi, tail_next, tail_zero, hsum]
    exact (decode_cons hs htail).trans (by rw [hv])
  next h =>
    obtain ⟨s, hs, hmore, hbits, hlo, hhi⟩ :=
      lead?_four (n := v / 262144 % 8 + 240) (m := v / 4096 % 64 + 128) (by omega) (by omega) (by omega) (by omega)
    have hsum : ((s.bits * 64 + (v / 4096 % 64 + 128) % 64) * 64 + v / 64 % 64) * 64 + v % 64 = v := by omega
    have htail : tail s.more s.lo s.hi s.bits
        (UInt8.ofNat (v / 4096 % 64 + 128) :: UInt8.ofNat (v / 64 % 64 + 128) :: UInt8.ofNat (v % 64 + 128) :: l) =
        (some v, l) := by
      rw [hmore, tail_succ hlo hhi, tail_next, tail_next, tail_zero, hsum]
    exact (decode_cons hs htail).trans (by rw [hv])

theorem decode_flatMap (l : List Char) : decode (l.flatMap String.utf8EncodeChar) = l := by
  induction l with
  | nil => rw [List.flatMap_nil, decode]
  | cons c l ih => rw [List.flatMap_cons, decode_utf8EncodeChar, ih]

/-! ### Zeros -/

theorem tail_bounds {more acc n : Nat} (h : tail more 0x80 0xBF acc l = (some n, r)) :
    acc * 64 ^ more ≤ n ∧ n < (acc + 1) * 64 ^ more := by
  induction more generalizing acc l with
  | zero =>
    rw [tail_zero] at h
    cases h
    omega
  | succ more ih =>
    cases l with
    | nil => simp [tail] at h
    | cons b l =>
      rw [tail] at h
      split at h
      · have hrest := ih h
        have hlow : acc * 64 ^ (more + 1) ≤ (acc * 64 + b.toNat % 64) * 64 ^ more := by
          rw [Nat.pow_succ, Nat.mul_comm (64 ^ more), ← Nat.mul_assoc]
          exact Nat.mul_le_mul_right _ (by omega)
        have hhigh : (acc * 64 + b.toNat % 64 + 1) * 64 ^ more ≤ (acc + 1) * 64 ^ (more + 1) := by
          rw [Nat.pow_succ, Nat.mul_comm (64 ^ more), ← Nat.mul_assoc]
          exact Nat.mul_le_mul_right _ (by omega)
        omega
      · cases h

/-- What the first continuation byte may be bounds what is read. -/
theorem Lead.bounds {s : Lead} {more n : Nat} (hmore : s.more = more + 1) (hlo : 0x80 ≤ s.lo.toNat) (hhi : s.hi.toNat ≤ 0xBF)
    (h : tail s.more s.lo s.hi s.bits l = (some n, r)) :
    (s.bits * 64 + (s.lo.toNat - 0x80)) * 64 ^ more ≤ n ∧ n < (s.bits * 64 + (s.hi.toNat - 0x80) + 1) * 64 ^ more := by
  rw [hmore] at h
  cases l with
  | nil => simp [tail] at h
  | cons b l =>
    rw [tail] at h
    split at h
    · rename_i hrange
      rw [UInt8.le_iff_toNat_le, UInt8.le_iff_toNat_le] at hrange
      have hrest := tail_bounds h
      have hlow : (s.bits * 64 + (s.lo.toNat - 0x80)) * 64 ^ more ≤ (s.bits * 64 + b.toNat % 64) * 64 ^ more :=
        Nat.mul_le_mul_right _ (by omega)
      have hhigh : (s.bits * 64 + b.toNat % 64 + 1) * 64 ^ more ≤ (s.bits * 64 + (s.hi.toNat - 0x80) + 1) * 64 ^ more :=
        Nat.mul_le_mul_right _ (by omega)
      omega
    · cases h

/-- The codes that a lead byte announces are those of characters, and none of them is zero. -/
theorem lead?_codes {s : Lead} (hb : b ≠ 0) (hs : lead? b = some s) :
    (s.more = 0 ∧ 0 < s.bits ∧ s.bits < 0x80) ∨
      ∃ more low high, s.more = more + 1 ∧ 0x80 ≤ s.lo.toNat ∧ s.hi.toNat ≤ 0xBF ∧
        (s.bits * 64 + (s.lo.toNat - 0x80)) * 64 ^ more = low ∧ (s.bits * 64 + (s.hi.toNat - 0x80) + 1) * 64 ^ more = high ∧
        0 < low ∧ (high ≤ 0xD800 ∨ 0xDFFF < low ∧ high ≤ 0x110000) := by
  have hzero : b.toNat ≠ 0 := fun h => hb (UInt8.toNat_inj.mp h)
  have hlt := b.toNat_lt
  unfold lead? at hs
  dsimp only at hs
  generalize b.toNat = n at hs hzero hlt
  split at hs
  · cases hs
    exact Or.inl ⟨rfl, Nat.pos_of_ne_zero hzero, ‹_›⟩
  split at hs
  · cases hs
  iterate 7
    split at hs
    · cases hs
      refine Or.inr ⟨_, _, _, rfl, by simp, by simp, rfl, rfl, ?_⟩
      simp only [UInt8.reduceToNat]
      omega
  cases hs

theorem code_valid {s : Lead} {n : Nat} (hb : b ≠ 0) (hs : lead? b = some s)
    (h : tail s.more s.lo s.hi s.bits l = (some n, r)) : n ≠ 0 ∧ n.isValidChar := by
  obtain ⟨hmore, hpos, hlt⟩ | ⟨more, low, high, hmore, hlo, hhi, hlow, hhigh, hpos, hvalid⟩ := lead?_codes hb hs
  · rw [hmore, tail_zero] at h
    cases h
    exact ⟨Nat.ne_of_gt hpos, Or.inl (by omega)⟩
  · have hbounds := Lead.bounds hmore hlo hhi h
    rw [hlow, hhigh] at hbounds
    exact ⟨by omega, by unfold Nat.isValidChar; omega⟩

theorem ofNat_ne_zero {n : Nat} (h : n ≠ 0 ∧ n.isValidChar) : Char.ofNat n ≠ '\x00' := by
  intro he
  have := congrArg Char.toNat he
  rw [Char.ofNat, dif_pos h.2] at this
  exact h.1 this

theorem tail_suffix (more : Nat) (lo hi : UInt8) (acc : Nat) (l : List UInt8) : (tail more lo hi acc l).2 <:+ l := by
  induction l generalizing more lo hi acc with
  | nil => simp [tail]
  | cons b l ih =>
    unfold tail
    split
    · exact List.suffix_refl _
    · split
      · exact (ih _ _ _ _).trans (List.suffix_cons _ _)
      · exact List.suffix_refl _

theorem zero_notMem_decode (h : 0 ∉ l) : '\x00' ∉ decode l := by
  have rest {b : UInt8} {l r : List UInt8} {s : Lead} {c : Option Nat} (h : 0 ∉ b :: l)
      (ht : tail s.more s.lo s.hi s.bits l = (c, r)) : 0 ∉ r := fun hr => by
    have hs := tail_suffix s.more s.lo s.hi s.bits l
    rw [ht] at hs
    exact h (List.mem_cons_of_mem _ (hs.subset hr))
  induction l using decode.induct with
  | case1 => rw [decode]; exact List.not_mem_nil
  | case2 b l hlead ih =>
    rw [decode, hlead]
    exact List.not_mem_cons_of_ne_of_not_mem (by decide) (ih fun hl => h (List.mem_cons_of_mem _ hl))
  | case3 b l s hlead n r ht _ ih =>
    rw [decode_cons hlead ht]
    have hb : b ≠ 0 := fun hb => h (hb ▸ List.mem_cons_self)
    exact List.not_mem_cons_of_ne_of_not_mem ((ofNat_ne_zero (code_valid hb hlead ht)).symm) (ih (rest h ht))
  | case4 b l s hlead r ht _ ih =>
    have hdecode : decode (b :: l) = '\uFFFD' :: decode r := by
      rw [decode, hlead]
      simp only
      split <;> rename_i h' <;> rw [ht] at h' <;> cases h'
      rfl
    rw [hdecode]
    exact List.not_mem_cons_of_ne_of_not_mem (by decide) (ih (rest h ht))

end Utf8

/-! ### Fields -/

/-- The bytes of a text. -/
def bytes (s : String) : List UInt8 := Bytes.list s.toUTF8

theorem length_bytes (s : String) : (bytes s).length = s.utf8ByteSize := rfl

theorem bytes_eq (s : String) : bytes s = s.toList.flatMap String.utf8EncodeChar := by
  rw [bytes, String.toUTF8_eq_toByteArray, ← String.utf8Encode_toList, List.utf8Encode, Bytes.list,
    List.toList_data_toByteArray]

theorem decode_bytes (s : String) : String.ofList (Utf8.decode (bytes s)) = s := by
  rw [bytes_eq, Utf8.decode_flatMap, String.ofList_toList]

/-- The text has no zero in it, which would end it in a field. -/
def NoZero (s : String) : Prop := '\x00' ∉ s.toList

instance (s : String) : Decidable (NoZero s) := inferInstanceAs (Decidable (¬ _))

theorem zero_notMem_utf8EncodeChar {c : Char} (h : c ≠ '\x00') : 0 ∉ String.utf8EncodeChar c := by
  have hne : c.val.toNat ≠ 0 := fun he => h (Char.ext (UInt32.toNat_inj.mp he))
  have hpos {n : Nat} (hn : 0 < n ∧ n < 256) : (0 : UInt8) ≠ UInt8.ofNat n := fun he => by
    have := congrArg UInt8.toNat he
    rw [UInt8.toNat_ofNat_of_lt' hn.2] at this
    exact absurd this (Nat.ne_of_lt hn.1)
  unfold String.utf8EncodeChar
  generalize c.val.toNat = v at hne
  simp only
  split
  next h => simpa using hpos (by omega)
  split
  next h =>
    simp only [List.mem_cons, List.not_mem_nil, or_false, not_or]
    exact ⟨hpos (by omega), hpos (by omega)⟩
  split
  next h =>
    simp only [List.mem_cons, List.not_mem_nil, or_false, not_or]
    exact ⟨hpos (by omega), hpos (by omega), hpos (by omega)⟩
  next h =>
    simp only [List.mem_cons, List.not_mem_nil, or_false, not_or]
    exact ⟨hpos (by omega), hpos (by omega), hpos (by omega), hpos (by omega)⟩

theorem NoZero.zero_notMem {s : String} (h : NoZero s) : 0 ∉ bytes s := by
  rw [bytes_eq, List.mem_flatMap]
  rintro ⟨c, hc, hzero⟩
  exact zero_notMem_utf8EncodeChar (fun he => h (he ▸ hc)) hzero

private theorem toList_loop (b : ByteArray) (i : Nat) (r : List UInt8) :
    ByteArray.toList.loop b i r = r.reverse ++ (Bytes.list b).drop i := by
  induction i, r using ByteArray.toList.loop.induct b with
  | case1 i r h ih =>
    have hget : b.get! i = b[i] := getElem!_pos b.data i h
    have hdrop : (Bytes.list b).drop i = b[i] :: (Bytes.list b).drop (i + 1) := List.drop_eq_getElem_cons h
    rw [ByteArray.toList.loop, if_pos h, ih, List.reverse_cons, List.append_assoc, List.singleton_append, hget,
      hdrop]
  | case2 i r h =>
    rw [ByteArray.toList.loop, if_neg h, List.drop_eq_nil_of_le (Nat.not_lt.mp h), List.append_nil]

theorem toList_eq (b : ByteArray) : b.toList = Bytes.list b := toList_loop b 0 []

/-- The text in front of the first zero. -/
def cut (s : String) : String := String.ofList (s.toList.takeWhile (· ≠ '\x00'))

theorem noZero_cut (s : String) : NoZero (cut s) := by
  unfold NoZero cut
  rw [String.toList_ofList]
  intro h
  simpa using List.all_eq_true.mp List.all_takeWhile '\x00' h

theorem cut_eq {s : String} (h : NoZero s) : cut s = s := by
  have hall : ∀ c ∈ s.toList, decide (c ≠ '\x00') = true := fun c hc => decide_eq_true fun he => h (he ▸ hc)
  have htake : (s.toList ++ []).takeWhile (· ≠ '\x00') = s.toList ++ [].takeWhile (· ≠ '\x00') := List.takeWhile_append_of_pos hall
  rw [List.append_nil, List.takeWhile_nil, List.append_nil] at htake
  rw [cut, htake, String.ofList_toList]

/-- The bytes of a text are those of what stands in front of its first zero, and behind these there is none or a zero. -/
theorem exists_bytes_cut (s : String) : ∃ r, bytes s = bytes (cut s) ++ r ∧ (r = [] ∨ ∃ r', r = 0 :: r') := by
  have hsplit : s.toList = (cut s).toList ++ s.toList.dropWhile (· ≠ '\x00') := by
    rw [cut, String.toList_ofList, List.takeWhile_append_dropWhile]
  refine ⟨(s.toList.dropWhile (· ≠ '\x00')).flatMap String.utf8EncodeChar, ?_, ?_⟩
  · rw [bytes_eq, bytes_eq, ← List.flatMap_append, ← hsplit]
  · cases hr : s.toList.dropWhile (· ≠ '\x00') with
    | nil => exact Or.inl rfl
    | cons c r =>
      have hc := List.head?_dropWhile_not (· ≠ '\x00') s.toList
      rw [hr] at hc
      obtain rfl : c = '\x00' := by simpa using hc
      exact Or.inr ⟨r.flatMap String.utf8EncodeChar, rfl⟩

theorem utf8ByteSize_cut_le (s : String) : (cut s).utf8ByteSize ≤ s.utf8ByteSize := by
  obtain ⟨r, hr, -⟩ := exists_bytes_cut s
  rw [← length_bytes, ← length_bytes, hr, List.length_append]
  exact Nat.le_add_right _ _

/-- A field that is filled up with zeros holds the text in front of the first of them. -/
theorem ofField_eq_cut {s : String} {b : ByteArray} {n : Nat} (hb : Bytes.list b = bytes s ++ List.replicate n 0) :
    ofField b = cut s := by
  obtain ⟨r, hr, hzero⟩ := exists_bytes_cut s
  have hall : ∀ x ∈ bytes (cut s), decide (x ≠ 0) = true := fun x hx =>
    decide_eq_true fun he => (noZero_cut s).zero_notMem (he ▸ hx)
  have htake : (bytes s ++ List.replicate n 0).takeWhile (· ≠ 0) = bytes (cut s) := by
    rw [hr, List.append_assoc, List.takeWhile_append_of_pos hall]
    obtain rfl | ⟨r', rfl⟩ := hzero
    · cases n <;> simp [List.replicate_succ]
    · simp
  rw [ofField, toList_eq, hb, htake, decode_bytes]

/-- A field ends where its first zero stands. -/
theorem noZero_ofField (b : ByteArray) : NoZero (ofField b) := by
  unfold NoZero ofField
  rw [String.toList_ofList]
  refine Utf8.zero_notMem_decode fun h => ?_
  simpa using List.all_eq_true.mp List.all_takeWhile 0 h

end Adventure.Text
