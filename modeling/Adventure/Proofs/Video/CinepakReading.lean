import Adventure.Proofs.Video.CinepakCode
import Adventure.Proofs.Within

/-! Reading a picture against the bytes it is written in. A step takes bytes if it goes on wherever they
stand and stops behind them; steps in a row take bytes in a row. A mask shows the flags it was made of. -/

namespace Adventure.Cinepak

open Bytes (Holds)

variable {α β : Type} {data : ByteArray} {m : M α} {f : α → M β} {k l : List UInt8} {s t u : State} {a : α} {b : β}

/-- Where the bytes `l` stand, the step leads from `s` to `t`, gives `a`, and stops behind them. -/
def Takes (data : ByteArray) (m : M α) (l : List UInt8) (s : State) (a : α) (t : State) : Prop :=
  ∀ pos, Holds data pos l → m { s with pos } = .ok a { t with pos := pos + l.length }

namespace Takes

theorem bind (hm : Takes data m k s a t) (hf : Takes data (f a) l t b u) : Takes data (m >>= f) (k ++ l) s b u := by
  intro pos h
  rw [bind_of_ok (hm pos h.left), List.length_append, ← Nat.add_assoc]
  exact hf (pos + k.length) h.right

theorem value (a : α) (s : State) : Takes data (pure a) [] s a s := fun _ _ => rfl

/-- A step that reads nothing. -/
theorem still (h : ∀ pos, m { s with pos } = .ok a { t with pos }) : Takes data m [] s a t := fun pos _ => h pos

/-- What comes first reads nothing. -/
theorem after (h : ∀ pos, m { s with pos } = .ok a { t with pos }) (hf : Takes data (f a) l t b u) :
    Takes data (m >>= f) l s b u := (still h).bind hf

/-- What follows reads nothing. -/
theorem bind_nil (hm : Takes data m l s a t) (hf : Takes data (f a) [] t b u) : Takes data (m >>= f) l s b u := by
  have h := hm.bind hf
  rwa [List.append_nil] at h

theorem congr {l' : List UInt8} (h : Takes data m l s a t) (hl : l = l') : Takes data m l' s a t := hl ▸ h

end Takes

/-! ### Numbers -/

/-- A byte is read where there is one; behind the last one nothing changes. -/
theorem leads_byte {good : UInt8 → State → Prop} {bad : State → Prop}
    (hbyte : ∀ h : s.pos < data.size, good data[s.pos] { s with pos := s.pos + 1 }) (hend : bad s) :
    Leads (byte data) s good bad := by
  by_cases h : s.pos < data.size
  · rw [Leads, show byte data s = .ok data[s.pos] { s with pos := s.pos + 1 } from dif_pos h]
    exact hbyte h
  · rw [Leads, show byte data s = .error (.pictureEnd s.pos) s from dif_neg h]
    exact hend

theorem takes_byte (v : UInt8) (s : State) : Takes data (byte data) [v] s v s := by
  intro pos h
  have hv : data[pos]? = some v := h.head
  obtain ⟨hpos, hv⟩ := getElem?_eq_some_iff.mp hv
  simp only [byte, hpos, dif_pos, hv]
  rfl

theorem bigWord_join (w : UInt16) : ((w >>> 8).toUInt8.toUInt16 <<< 8) ||| w.toUInt8.toUInt16 = w := by
  rw [UInt16.or_comm]
  exact Bytes.word_join w

theorem takes_word (w : UInt16) (s : State) : Takes data (word data) (bigWord w) s w s := by
  have hread : Takes data (word data) (bigWord w) s _ s :=
    (takes_byte (w >>> 8).toUInt8 s).bind ((takes_byte w.toUInt8 s).bind_nil (.value _ s))
  rwa [bigWord_join] at hread

theorem takes_long (w : UInt32) (s : State) : Takes data (long data) (bigLong w) s w s := by
  have hread : Takes data (long data) (bigLong w) s _ s :=
    (takes_word (w >>> 16).toUInt16 s).bind ((takes_word w.toUInt16 s).bind_nil (.value _ s))
  have hjoin : ((w >>> 16).toUInt16.toUInt32 <<< 16) ||| w.toUInt16.toUInt32 = w := by
    rw [UInt32.or_comm]
    exact Bytes.long_join w
  rwa [hjoin] at hread

theorem takes_vector (v : PixelVector) (s : State) : Takes data (readVector data) v.bytes s v s := by
  have hread : Takes data (readVector data) v.bytes s _ s :=
    (takes_byte v.y₀ s).bind <| (takes_byte v.y₁ s).bind <| (takes_byte v.y₂ s).bind <| (takes_byte v.y₃ s).bind <|
      (takes_byte (v.u - 128) s).bind <| (takes_byte (v.v - 128) s).bind_nil (.value _ s)
  rwa [UInt8.sub_add_cancel, UInt8.sub_add_cancel] at hread

/-! ### Masks -/

/-- From bit `i` on a mask shows some flags, and behind them clear ones. -/
def Shows (mask : UInt32) (i : Nat) (bits : List Bool) : Prop :=
  ∀ k, i + k < 32 → maskBit mask (i + k) = bits.getD k false

theorem Shows.head {mask : UInt32} {i : Nat} {bit : Bool} {bits : List Bool} (h : Shows mask i (bit :: bits)) (hi : i < 32) :
    maskBit mask i = bit := h 0 hi

theorem Shows.tail {mask : UInt32} {i : Nat} {bit : Bool} {bits : List Bool} (h : Shows mask i (bit :: bits)) :
    Shows mask (i + 1) bits := by
  intro k hk
  have hnext := h (k + 1) (by omega)
  rwa [← Nat.add_assoc, Nat.add_right_comm] at hnext

/-- Behind its flags a mask is clear. -/
theorem Shows.clear {mask : UInt32} {i : Nat} (h : Shows mask i []) (hi : i < 32) :
    maskBit mask i = false ∧ Shows mask (i + 1) [] := by
  refine ⟨h 0 hi, fun k hk => ?_⟩
  have hnext := h (k + 1) (by omega)
  rwa [← Nat.add_assoc, Nat.add_right_comm] at hnext

/-- Only the flags that find room in the mask count. -/
theorem Shows.take {mask : UInt32} {i n : Nat} {bits : List Bool} (h : Shows mask i bits) (hn : 32 ≤ i + n) :
    Shows mask i (bits.take n) := by
  intro k hk
  rw [h k hk, List.getD_eq_getElem?_getD, List.getD_eq_getElem?_getD, List.getElem?_take_of_lt (by omega)]

theorem bitsValue_lt (n : Nat) (bits : List Bool) : bitsValue n bits < 2 ^ n := by
  induction n generalizing bits with
  | zero => exact Nat.one_pos
  | succ n ih =>
    cases bits with
    | nil => exact Nat.two_pow_pos _
    | cons b bits =>
      have hrest := ih bits
      have hb : b.toNat ≤ 1 := Bool.toNat_le b
      rw [bitsValue, Nat.pow_succ]
      have hfirst : b.toNat * 2 ^ n ≤ 1 * 2 ^ n := Nat.mul_le_mul_right _ hb
      omega

theorem testBit_bitsValue {n : Nat} {bits : List Bool} {i : Nat} (hi : i < n) :
    (bitsValue n bits).testBit (n - 1 - i) = bits.getD i false := by
  induction n generalizing bits i with
  | zero => cases hi
  | succ n ih =>
    cases bits with
    | nil => simp [bitsValue]
    | cons b bits =>
      rw [bitsValue, Nat.mul_comm, Nat.testBit_two_pow_mul_add _ (bitsValue_lt n bits)]
      cases i with
      | zero =>
        rw [if_neg (by omega), show n + 1 - 1 - 0 - n = 0 by omega]
        cases b <;> rfl
      | succ i =>
        rw [if_pos (by omega), show n + 1 - 1 - (i + 1) = n - 1 - i by omega]
        exact ih (by omega)

theorem maskBit_eq (mask : UInt32) {i : Nat} (hi : i < 32) : maskBit mask i = mask.toNat.testBit (31 - i) := by
  have hplace : (31 - i).toUInt32.toNat = 31 - i := UInt32.toNat_ofNat_of_lt' (by simp only [UInt32.size]; omega)
  have hbit : ((1 : UInt32) <<< (31 - i).toUInt32).toNat = 2 ^ (31 - i) := by
    rw [UInt32.toNat_shiftLeft, hplace, Nat.mod_eq_of_lt (show 31 - i < 32 by omega), UInt32.toNat_one, Nat.one_shiftLeft]
    exact Nat.mod_eq_of_lt (Nat.pow_lt_pow_right (by decide) (by omega))
  have hclear : mask &&& ((1 : UInt32) <<< (31 - i).toUInt32) = 0 ↔ mask.toNat.testBit (31 - i) = false := by
    rw [← UInt32.toNat_inj, UInt32.toNat_and, hbit, Nat.and_two_pow]
    cases mask.toNat.testBit (31 - i) <;> simp
  simp only [maskBit, ne_eq, hclear, Bool.not_eq_false, Bool.decide_eq_true]

theorem shows_maskOf (flags : List Bool) : Shows (maskOf flags) 0 flags := by
  intro k hk
  rw [Nat.zero_add] at hk ⊢
  have hmask : (maskOf flags).toNat = bitsValue 32 flags := UInt32.toNat_ofNat_of_lt' (bitsValue_lt 32 flags)
  rw [maskBit_eq _ hk, hmask]
  exact testBit_bitsValue hk

/-! ### Flags with their bytes -/

/-- What follows where the next `n` flags are those of the mask that was read last. -/
def following (n : Nat) (l : List (Bool × List UInt8)) : List UInt8 := (l.take n).flatMap Prod.snd ++ gathered (l.drop n)

@[simp] theorem gathered_nil : gathered [] = [] := by rw [gathered, dif_pos rfl]

theorem gathered_eq {l : List (Bool × List UInt8)} (h : l ≠ []) :
    gathered l = bigLong (maskOf (l.map Prod.fst)) ++ following 32 l := by
  rw [gathered, dif_neg h, List.append_assoc]
  rfl

@[simp] theorem following_nil (n : Nat) : following n [] = [] := by simp [following]

@[simp] theorem following_cons (n : Nat) (t : Bool × List UInt8) (l : List (Bool × List UInt8)) :
    following (n + 1) (t :: l) = t.2 ++ following n l := by
  simp [following]

/-- There are at most eight flags for each byte. -/
theorem length_le_gathered (l : List (Bool × List UInt8)) : l.length ≤ 8 * (gathered l).length := by
  induction l using gathered.induct with
  | case1 => exact Nat.zero_le _
  | case2 l h ih =>
    have hmask : (bigLong (maskOf (l.map Prod.fst))).length = 4 := rfl
    rw [gathered_eq h, following, List.length_append, List.length_append, hmask]
    rw [List.length_drop] at ih
    omega

end Adventure.Cinepak
