import Adventure.Proofs.Codec.LzssSafety
import Adventure.Proofs.Bytes.Words

/-! The checksum of a block. It is linear: buffers that are combined by exclusive or have checksums that
are. Each word goes into it by a rotation, which loses nothing, so that a block in which one word was
changed is not taken for a good one. -/

namespace Adventure.Lzss

/-- A rotation to the right by one bit. -/
def rotate (sum : UInt16) : UInt16 := ((sum &&& 1) <<< 15) ||| (sum >>> 1)

theorem getLsbD_rotate (s : UInt16) {i : Nat} (hi : i < 16) :
    (rotate s).toBitVec.getLsbD i = s.toBitVec.getLsbD ((i + 1) % 16) := by
  unfold rotate
  by_cases h : i < 15
  · have hnext : (i + 1) % 16 = 1 + i := by omega
    simp [h, hi, hnext]
  · obtain rfl : i = 15 := by omega
    simp

theorem rotate_xor (s t : UInt16) : rotate (s ^^^ t) = rotate s ^^^ rotate t := by
  refine UInt16.toBitVec_inj.mp (BitVec.eq_of_getLsbD_eq fun i hi => ?_)
  simp only [UInt16.toBitVec_xor, BitVec.getLsbD_xor, getLsbD_rotate _ hi]

theorem rotate_inj {s t : UInt16} (h : rotate s = rotate t) : s = t := by
  refine UInt16.toBitVec_inj.mp (BitVec.eq_of_getLsbD_eq fun i hi => ?_)
  -- bit `i` of the sum is bit `i - 1` of its rotation
  have hback : ((i + 15) % 16 + 1) % 16 = i := by omega
  have hbit := getLsbD_rotate s (Nat.mod_lt (i + 15) (by decide : 0 < 16))
  have hbit' := getLsbD_rotate t (Nat.mod_lt (i + 15) (by decide : 0 < 16))
  rw [hback] at hbit hbit'
  rw [← hbit, ← hbit', h]

theorem checksumStep_eq (sum w : UInt16) : checksumStep sum w = rotate sum ^^^ w := rfl

theorem checksumStep_xor (s t v w : UInt16) :
    checksumStep (s ^^^ t) (v ^^^ w) = checksumStep s v ^^^ checksumStep t w := by
  simp only [checksumStep_eq, rotate_xor]
  ac_rfl

/-- A different sum stays different. -/
theorem checksumStep_left_inj {s t w : UInt16} (h : checksumStep s w = checksumStep t w) : s = t :=
  rotate_inj (UInt16.xor_left_inj w |>.mp h)

/-- A different word makes a different sum. -/
theorem checksumStep_right_inj {s v w : UInt16} (h : checksumStep s v = checksumStep s w) : v = w :=
  UInt16.xor_right_inj (rotate s) |>.mp h

/-- The word number `i` of the region at `pos`. -/
def word? (data : ByteArray) (pos i : Nat) : Option UInt16 := Bytes.le16? data (pos + 2 * i)

theorem word?_succ (data : ByteArray) (pos i : Nat) : word? data pos (i + 1) = word? data (pos + 2) i := by
  rw [word?, word?, Nat.mul_add_one, Nat.add_comm (2 * i), Nat.add_assoc]

theorem word?_putWord_self {b : ByteArray} {p j : Nat} {v w : UInt16} (h : word? b p j = some v) :
    word? (Bytes.putWord b (p + 2 * j) w) p j = some w :=
  Bytes.le16?_putWord_self (Bytes.le_size_of_le16? h)

theorem word?_putWord_of_ne {b : ByteArray} {p i j : Nat} {w : UInt16} (h : i ≠ j) :
    word? (Bytes.putWord b (p + 2 * j) w) p i = word? b p i :=
  Bytes.le16?_putWord_of_ne (by omega)

theorem checksumFrom_succ (data : ByteArray) (sum : UInt16) (pos count : Nat) :
    checksumFrom data sum pos (count + 1) =
      (word? data pos 0).bind fun w => checksumFrom data (checksumStep sum w) (pos + 2) count := by
  rw [checksumFrom, show Bytes.le16? data pos = word? data pos 0 from rfl]
  cases word? data pos 0 <;> rfl

variable {a b c src : ByteArray} {s t x w : UInt16} {p q r j count : Nat}

theorem checksumFrom_congr (hwords : ∀ i < count, word? b p i = word? a p i) :
    checksumFrom b s p count = checksumFrom a s p count := by
  induction count generalizing s p with
  | zero => rfl
  | succ count ih =>
    have hrest : ∀ i < count, word? b (p + 2) i = word? a (p + 2) i := fun i hi => by
      simpa only [word?_succ] using hwords (i + 1) (Nat.succ_lt_succ hi)
    simp only [checksumFrom_succ, hwords 0 (Nat.succ_pos count), ih hrest]

theorem exists_word (hj : j < count) (h : checksumFrom a s p count = some x) : ∃ w, word? a p j = some w := by
  induction count generalizing s p j with
  | zero => omega
  | succ count ih =>
    rw [checksumFrom_succ] at h
    obtain ⟨v, hv, hrest⟩ := Option.bind_eq_some_iff.mp h
    cases j with
    | zero => exact ⟨v, hv⟩
    | succ j =>
      rw [word?_succ]
      exact ih (by omega) hrest

/-- Two sums that differ still differ behind the same words. -/
theorem checksumFrom_of_ne (hne : s ≠ t) (h : checksumFrom a s p count = some x) :
    ∃ y, checksumFrom a t p count = some y ∧ x ≠ y := by
  induction count generalizing s t p with
  | zero => exact ⟨t, rfl, Option.some.inj h ▸ hne⟩
  | succ count ih =>
    rw [checksumFrom_succ] at h ⊢
    obtain ⟨w, hw, hrest⟩ := Option.bind_eq_some_iff.mp h
    rw [hw]
    exact ih (fun hstep => hne (checksumStep_left_inj hstep)) hrest

/-- A region in which one word is another one has another sum. -/
theorem checksumFrom_changed (hj : j < count) (hother : ∀ i < count, i ≠ j → word? b p i = word? a p i)
    (hnew : word? b p j = some w) (hold : word? a p j ≠ some w) (h : checksumFrom a s p count = some x) :
    ∃ y, checksumFrom b s p count = some y ∧ x ≠ y := by
  induction count generalizing s p j with
  | zero => omega
  | succ count ih =>
    rw [checksumFrom_succ] at h ⊢
    obtain ⟨v, hv, hrest⟩ := Option.bind_eq_some_iff.mp h
    have hothers : ∀ i < count, i + 1 ≠ j → word? b (p + 2) i = word? a (p + 2) i := fun i hi hij => by
      simpa only [word?_succ] using hother (i + 1) (Nat.succ_lt_succ hi) hij
    cases j with
    | zero =>
      have hstep : checksumStep s v ≠ checksumStep s w := fun hsum => hold (checksumStep_right_inj hsum ▸ hv)
      rw [hnew, Option.bind_some, checksumFrom_congr fun i hi => hothers i hi (Nat.succ_ne_zero i)]
      exact checksumFrom_of_ne hstep hrest
    | succ j =>
      rw [hother 0 (Nat.succ_pos count) (Nat.succ_ne_zero j).symm, hv]
      rw [word?_succ] at hnew hold
      exact ih (by omega) (fun i hi hij => hothers i hi (by omega)) hnew hold hrest

/-- The sum of combined words is that of the sums. -/
theorem checksumFrom_xor
    (hwords : ∀ i < count, word? c r i = Option.map₂ (· ^^^ ·) (word? a p i) (word? b q i)) :
    checksumFrom c (s ^^^ t) r count =
      Option.map₂ (· ^^^ ·) (checksumFrom a s p count) (checksumFrom b t q count) := by
  induction count generalizing s t p q r with
  | zero => rfl
  | succ count ih =>
    have hrest : ∀ i < count, word? c (r + 2) i = Option.map₂ (· ^^^ ·) (word? a (p + 2) i) (word? b (q + 2) i) :=
      fun i hi => by simpa only [word?_succ] using hwords (i + 1) (Nat.succ_lt_succ hi)
    simp only [checksumFrom_succ, hwords 0 (Nat.succ_pos count)]
    cases word? a p 0 with
    | none => rfl
    | some v =>
      cases word? b q 0 with
      | none => simp
      | some w =>
        simp only [Option.map₂_some_some, Option.bind_some, checksumStep_xor]
        exact ih hrest

theorem checkBlock_ok {pos units : Nat} (h : checkBlock src pos units = .ok ()) :
    ∃ sum, word? src pos 0 = some sum ∧ checksum? src (pos + 2) (units * 8 - 1) = some sum := by
  unfold checkBlock at h
  split at h
  · rename_i expected actual hexpected hactual
    split at h
    · rename_i heq
      exact ⟨expected, hexpected, heq ▸ hactual⟩
    · cases h
  · cases h

theorem checkBlock_of_ne {pos units : Nat} {expected actual : UInt16} (hexpected : word? src pos 0 = some expected)
    (hactual : checksum? src (pos + 2) (units * 8 - 1) = some actual) (hne : expected ≠ actual) :
    checkBlock src pos units = .error (.checksum expected actual) := by
  rw [checkBlock, show Bytes.le16? src pos = _ from hexpected, hactual]
  exact if_neg hne

/-- A block that was good is not any more when one of its words is another one, the stored sum or one of
those that it is of. -/
theorem checkBlock_changed {pos units : Nat} (hgood : checkBlock src pos units = .ok ()) (hj : j < units * 8)
    (hold : word? src pos j ≠ some w) :
    ∃ expected actual, expected ≠ actual ∧
      checkBlock (Bytes.putWord src (pos + 2 * j) w) pos units = .error (.checksum expected actual) := by
  obtain ⟨sum, hstored, hsum⟩ := checkBlock_ok hgood
  cases j with
  | zero =>
    refine ⟨w, sum, fun heq => hold (heq ▸ hstored), checkBlock_of_ne (word?_putWord_self hstored) ?_
      fun heq => hold (heq ▸ hstored)⟩
    rw [← hsum]
    exact checksumFrom_congr fun i _ => by rw [← word?_succ, ← word?_succ, word?_putWord_of_ne (Nat.succ_ne_zero i)]
  | succ j =>
    have hj : j < units * 8 - 1 := by omega
    obtain ⟨v, hv⟩ := exists_word hj hsum
    rw [← word?_succ] at hv
    obtain ⟨actual, hactual, hne⟩ := checksumFrom_changed (b := Bytes.putWord src (pos + 2 * (j + 1)) w) hj
      (fun i _ hij => by rw [← word?_succ, ← word?_succ, word?_putWord_of_ne (by omega)])
      (by rw [← word?_succ, word?_putWord_self hv]) (by rwa [← word?_succ]) hsum
    refine ⟨sum, actual, hne, checkBlock_of_ne ?_ hactual hne⟩
    rw [word?_putWord_of_ne (Nat.succ_ne_zero j).symm, hstored]

theorem header_putWord {i : Nat} (h : 8 ≤ i) (src : ByteArray) (w : UInt16) :
    header (Bytes.putWord src i w) = header src := by
  rw [header, header, Bytes.le32?_putWord (by omega), Bytes.le32?_putWord (by omega), Bytes.size_putWord]

theorem decode_of_checkBlock {declared units : Nat} {e : CodecError} (hheader : header src = .ok (declared, units))
    (hunits : units ≠ 0) (hcheck : checkBlock src 8 (min units blockUnits) = .error e) : decode src = .error e := by
  rw [decode_eq, hheader]
  have hblocks : decodeBlocks src declared units 8 ByteArray.empty = .error e := by
    rw [decodeBlocks, if_neg hunits, hcheck]
  exact congrArg (·.bind (finish declared)) hblocks

/-- If the first block is good, replacing one of its words by another one, be it the stored sum or one of
those that it is of, makes the decoder report the checksum. This rests on how sums are made: that of the
exclusive or of two regions is the exclusive or of theirs. -/
theorem decode_changed_word :
    (∀ src declared units i w, header src = .ok (declared, units) → units ≠ 0 →
      checkBlock src 8 (min units blockUnits) = .ok () → i < min units blockUnits * 8 →
      Bytes.le16? src (8 + 2 * i) ≠ some w →
      ∃ expected actual, expected ≠ actual ∧
        decode (Bytes.putWord src (8 + 2 * i) w) = .error (.checksum expected actual)) ∧
    ∀ a b p q count,
      checksum? (Bytes.xor (a.extract p (p + 2 * count)) (b.extract q (q + 2 * count))) 0 count =
        Option.map₂ (· ^^^ ·) (checksum? a p count) (checksum? b q count) := by
  constructor
  · intro src declared units i w hheader hunits hgood hi hold
    obtain ⟨expected, actual, hne, hbad⟩ := checkBlock_changed hgood hi hold
    exact ⟨expected, actual, hne, decode_of_checkBlock ((header_putWord (by omega) src w).trans hheader) hunits hbad⟩
  · intro a b p q count
    refine checksumFrom_xor (s := 0) (t := 0) fun i hi => ?_
    rw [word?, word?, word?, Bytes.le16?_xor, Bytes.le16?_extract (by omega), Bytes.le16?_extract (by omega), Nat.zero_add]

/-- The bytes `abc` in one block. -/
def abc : ByteArray :=
  Bytes.ofList [3, 0, 0, 0, 1, 0, 0, 0, 0x15, 0x67, 0x17, 0, 0x61, 0x62, 0x63, 0, 0, 0, 0, 0, 0, 0, 0, 0]

theorem decode_changed_abc :
    header abc = .ok (3, 1) ∧ checkBlock abc 8 (min 1 blockUnits) = .ok () ∧
      ∃ expected actual, expected ≠ actual ∧
        decode (Bytes.putWord abc (8 + 2 * 2) 0x6463) = .error (.checksum expected actual) := by
  have hheader : header abc = .ok (3, 1) := rfl
  have hgood : checkBlock abc 8 (min 1 blockUnits) = .ok () := rfl
  exact ⟨hheader, hgood, decode_changed_word.1 abc 3 1 2 0x6463 hheader (by decide) hgood (by decide) (by decide)⟩

end Adventure.Lzss
