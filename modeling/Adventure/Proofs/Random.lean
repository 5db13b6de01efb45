import Adventure.Random
import Mathlib.Algebra.Ring.Periodic
import Mathlib.Data.Int.ModEq
import Mathlib.Data.List.Perm.Subperm
import Mathlib.NumberTheory.Multiplicity
import Mathlib.RingTheory.Int.Basic
import Mathlib.Tactic.LinearCombination

/-! The numbers of a generator. Only fifteen bits of the state have a part in them: each number is the one before it,
multiplied and incremented modulo `2 ^ 15`. The multiplier is one more than a multiple of four and the increment is odd, so
that all numbers come before one of them comes again. -/

namespace Adventure.Random

/-! ### Multiplying and adding -/

section Affine

variable {a : ℤ}

/-- The sum of the first powers is divided by a power of two just when their number is. -/
theorem two_pow_dvd_sum_pow (ha : 4 ∣ a - 1) (hne : a ≠ 1) (k n : ℕ) :
    (2 : ℤ) ^ k ∣ ∑ i ∈ Finset.range n, a ^ i ↔ 2 ^ k ∣ n := by
  have hodd : ¬(2 : ℤ) ∣ a := by omega
  have hlift := Int.two_pow_sub_pow' n ha hodd
  rw [one_pow, ← geom_sum_mul, emultiplicity_mul Int.prime_two, add_comm] at hlift
  have hfinite : FiniteMultiplicity 2 (a - 1) := Int.finiteMultiplicity_iff.mpr ⟨by decide, sub_ne_zero.mpr hne⟩
  have hsum := ENat.add_right_injective_of_ne_top (finiteMultiplicity_iff_emultiplicity_ne_top.mp hfinite) hlift
  rw [pow_dvd_iff_le_emultiplicity, hsum, ← pow_dvd_iff_le_emultiplicity]
  exact_mod_cast Iff.rfl

theorem affine_iterate (a c x : ℤ) (n : ℕ) :
    (fun x => a * x + c)^[n] x = a ^ n * x + (∑ i ∈ Finset.range n, a ^ i) * c := by
  induction n with
  | zero => simp
  | succ n ih =>
    rw [Function.iterate_succ_apply', ih, geom_sum_succ]
    ring

/-- Steps with an odd increment lead back, up to multiples of a power of two, just when their number is such a multiple. -/
theorem affine_iterate_modEq_iff (ha : 4 ∣ a - 1) (hne : a ≠ 1) {c : ℤ} (hc : Odd c) (x : ℤ) (k n : ℕ) :
    (fun x => a * x + c)^[n] x ≡ x [ZMOD 2 ^ k] ↔ 2 ^ k ∣ n := by
  have heven : Even (a - 1) := even_iff_two_dvd.mpr (dvd_trans (by decide) ha)
  have hodd : Odd ((a - 1) * x + c) := (heven.mul_right x).add_odd hc
  -- from every start the way is an odd number times the sum of the powers
  have hmoved : (fun x => a * x + c)^[n] x - x = (∑ i ∈ Finset.range n, a ^ i) * ((a - 1) * x + c) := by
    rw [affine_iterate]
    linear_combination (-x) * geom_sum_mul a n
  rw [Int.modEq_comm, Int.modEq_iff_dvd, hmoved, ← two_pow_dvd_sum_pow ha hne]
  have hcoprime : IsCoprime ((2 : ℤ) ^ k) ((a - 1) * x + c) := (Int.isCoprime_two_left.mpr hodd).pow_left
  exact ⟨hcoprime.dvd_of_dvd_mul_right, fun h => h.mul_right _⟩

end Affine

/-! ### The numbers of a generator -/

theorem toNat_and_mask (s : UInt32) {m : UInt32} {k : ℕ} (hm : m.toNat = 2 ^ k - 1) : (s &&& m).toNat = s.toNat % 2 ^ k := by
  rw [UInt32.toNat_and, hm, Nat.and_two_pow_sub_one_eq_mod]

/-- The low bits of a state come from the low bits of the one before it. -/
theorem step_mod (s : UInt32) : (step s).toNat % 2 ^ 15 = (0x4E35 * s.toNat + 1) % 2 ^ 15 := by
  have hfits : 2 ^ 15 ∣ 2 ^ 32 := by decide
  have hhigh (m : UInt32) : (m <<< 16).toNat % 2 ^ 15 = 0 := by
    have hshift : (m <<< 16).toNat = m.toNat <<< 16 % 2 ^ 32 := UInt32.toNat_shiftLeft m 16
    rw [hshift, Nat.mod_mod_of_dvd _ hfits, Nat.shiftLeft_eq]
    omega
  have hlow : ((0x4E35 * s.toUInt16.toUInt32) &&& 0xFFFF).toNat % 2 ^ 15 = 0x4E35 * s.toNat % 2 ^ 15 := by
    have hfactor : (0x4E35 : UInt32).toNat = 0x4E35 := rfl
    rw [toNat_and_mask _ (by decide : (0xFFFF : UInt32).toNat = 2 ^ 16 - 1), UInt32.toNat_mul, hfactor,
      UInt16.toNat_toUInt32, UInt32.toNat_toUInt16]
    omega
  have hone : (1 : UInt32).toNat = 1 := rfl
  simp only [step]
  rw [UInt32.toNat_add, hone, Nat.mod_mod_of_dvd _ hfits, Nat.add_mod, UInt32.toNat_or, Nat.or_mod_two_pow, hhigh, hlow,
    Nat.zero_or, ← Nat.add_mod]

/-- The generator behind some numbers. -/
def after (g : Random) (n : ℕ) : Random := (fun g => g.next.2)^[n] g

/-- The number at a place, counted from zero. -/
def number (g : Random) (n : ℕ) : UInt16 := (g.after n).next.1

variable (g : Random)

theorem toNat_next : g.next.1.toNat = g.next.2.state.toNat % 2 ^ 15 := by
  have hmask : (step g.state &&& 0x7FFF).toNat = (step g.state).toNat % 2 ^ 15 := toNat_and_mask _ (by decide)
  have hword : (step g.state &&& 0x7FFF).toUInt16.toNat = (step g.state &&& 0x7FFF).toNat % 2 ^ 16 :=
    UInt32.toNat_toUInt16 _
  change (step g.state &&& 0x7FFF).toUInt16.toNat = (step g.state).toNat % 2 ^ 15
  omega

theorem toNat_number_zero : (g.number 0).toNat = (0x4E35 * g.state.toNat + 1) % 2 ^ 15 :=
  g.toNat_next.trans (step_mod g.state)

/-- Each number comes from the one before it. -/
theorem toNat_number_succ (n : ℕ) : (g.number (n + 1)).toNat = (0x4E35 * (g.number n).toNat + 1) % 2 ^ 15 := by
  have hnext : g.after (n + 1) = (g.after n).next.2 := Function.iterate_succ_apply' _ n g
  calc (g.number (n + 1)).toNat
      = (0x4E35 * (g.after (n + 1)).state.toNat + 1) % 2 ^ 15 := (g.after (n + 1)).toNat_number_zero
    _ = (0x4E35 * ((g.after n).next.2.state.toNat % 2 ^ 15) + 1) % 2 ^ 15 := by rw [hnext]; omega
    _ = (0x4E35 * (g.number n).toNat + 1) % 2 ^ 15 := by rw [number, toNat_next]

theorem number_lt (n : ℕ) : (g.number n).toNat < 2 ^ 15 := by
  rw [number, toNat_next]
  exact Nat.mod_lt _ (by decide)

/-- The bits of the state above the lowest fifteen have no part in the numbers. -/
theorem number_low (n : ℕ) : number ⟨g.state &&& 0x7FFF⟩ n = g.number n := by
  apply UInt16.toNat_inj.mp
  induction n with
  | zero =>
    rw [toNat_number_zero, toNat_number_zero, toNat_and_mask g.state (by decide : (0x7FFF : UInt32).toNat = 2 ^ 15 - 1)]
    omega
  | succ n ih => rw [toNat_number_succ, toNat_number_succ, ih]

theorem number_add_modEq (m d : ℕ) :
    ((g.number (m + d)).toNat : ℤ) ≡ (fun x => 0x4E35 * x + 1)^[d] (g.number m).toNat [ZMOD 2 ^ 15] := by
  induction d with
  | zero => rfl
  | succ d ih =>
    rw [← Nat.add_assoc, toNat_number_succ, Function.iterate_succ_apply']
    push_cast
    exact (Int.mod_modEq _ _).trans ((ih.mul_left _).add_right _)

theorem number_add_eq_iff (m d : ℕ) : g.number (m + d) = g.number m ↔ 2 ^ 15 ∣ d := by
  have hback := affine_iterate_modEq_iff (a := 0x4E35) (by decide) (by decide) odd_one (g.number m).toNat 15 d
  have hsteps := g.number_add_modEq m d
  have hword : g.number (m + d) = g.number m ↔
      ((g.number (m + d)).toNat : ℤ) ≡ (g.number m).toNat [ZMOD 2 ^ 15] := by
    have hleft := g.number_lt (m + d)
    have hright := g.number_lt m
    rw [← UInt16.toNat_inj, Int.ModEq]
    omega
  rw [hword, ← hback]
  exact ⟨hsteps.symm.trans, hsteps.trans⟩

/-- The same number comes again just when all others have come in between. -/
theorem number_eq_iff (m n : ℕ) : g.number m = g.number n ↔ m ≡ n [MOD 2 ^ 15] := by
  rcases le_total m n with hle | hle
  · obtain ⟨d, rfl⟩ := Nat.exists_eq_add_of_le hle
    rw [eq_comm, number_add_eq_iff, Nat.modEq_iff_dvd' hle, Nat.add_sub_cancel_left]
  · obtain ⟨d, rfl⟩ := Nat.exists_eq_add_of_le hle
    rw [number_add_eq_iff, Nat.ModEq.comm, Nat.modEq_iff_dvd' hle, Nat.add_sub_cancel_left]

/-- As many numbers as there are come in some order, each of them once. -/
theorem numbers_perm (n : ℕ) :
    ((List.range (2 ^ 15)).map fun i => (g.number (n + i)).toNat).Perm (List.range (2 ^ 15)) := by
  have hnodup : ((List.range (2 ^ 15)).map fun i => (g.number (n + i)).toNat).Nodup := by
    refine List.Nodup.map_on (fun i hi j hj heq => ?_) List.nodup_range
    have hsame := Nat.ModEq.add_left_cancel' n ((g.number_eq_iff _ _).mp (UInt16.toNat_inj.mp heq))
    rw [Nat.ModEq, Nat.mod_eq_of_lt (List.mem_range.mp hi), Nat.mod_eq_of_lt (List.mem_range.mp hj)] at hsame
    exact hsame
  have hsubset : ((List.range (2 ^ 15)).map fun i => (g.number (n + i)).toNat) ⊆ List.range (2 ^ 15) := by
    intro v hv
    obtain ⟨i, -, rfl⟩ := List.mem_map.mp hv
    exact List.mem_range.mpr (g.number_lt (n + i))
  exact (List.subperm_of_subset hnodup hsubset).perm_of_length_le (by simp)

/-- Each number of a generator is the one before it, multiplied and incremented modulo `2 ^ 15`; of the state it starts with,
only the lowest fifteen bits have a part in them. Any `2 ^ 15` numbers in a row are all numbers below `2 ^ 15` in some
order, and two places hold the same number just when they are a multiple of `2 ^ 15` apart, so that this is the least
period. -/
theorem numbers_full_period :
    (g.number 0).toNat = (0x4E35 * g.state.toNat + 1) % 2 ^ 15 ∧
      (∀ n, (g.number (n + 1)).toNat = (0x4E35 * (g.number n).toNat + 1) % 2 ^ 15) ∧
      (∀ n, number ⟨g.state &&& 0x7FFF⟩ n = g.number n) ∧
      (∀ n, ((List.range (2 ^ 15)).map fun i => (g.number (n + i)).toNat).Perm (List.range (2 ^ 15))) ∧
      (∀ m n, g.number m = g.number n ↔ m ≡ n [MOD 2 ^ 15]) ∧
      ∀ p, Function.Periodic g.number p ↔ 2 ^ 15 ∣ p := by
  refine ⟨g.toNat_number_zero, g.toNat_number_succ, g.number_low, g.numbers_perm, g.number_eq_iff, fun p => ⟨fun h => ?_, ?_⟩⟩
  · exact (g.number_add_eq_iff 0 p).mp (h 0)
  · exact fun h n => (g.number_add_eq_iff n p).mpr h

end Adventure.Random
