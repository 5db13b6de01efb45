import Adventure.Script.Place
import Mathlib.Data.Int.ModEq

/-! Quotients and remainders of scripts. Both are cut towards zero, so that a remainder has the sign of its dividend; as
words they are exact where they have a place in sixteen bits. -/

namespace Adventure

namespace Word

/-- The value has a place in sixteen bits. -/
def FitsShort (v : Int) : Prop := -32768 ≤ v ∧ v ≤ 32767

instance (v : Int) : Decidable (FitsShort v) := inferInstanceAs (Decidable (_ ∧ _))

theorem toInt_toInt16 {v : Int} (h : FitsShort v) : v.toInt16.toInt = v :=
  Int16.toInt_ofInt_of_le h.1 (by unfold FitsShort at h; omega)

theorem fitsShort_toInt (w : Int16) : FitsShort w.toInt := ⟨w.le_toInt, Int.le_of_lt_add_one w.toInt_lt⟩

theorem toInt_sub {v w : Int16} (h : FitsShort (v.toInt - w.toInt)) : (v - w).toInt = v.toInt - w.toInt := by
  rw [Int16.toInt_sub]
  exact Int.bmod_eq_of_le h.1 (Int.lt_of_le_of_lt h.2 (by decide))

theorem toInt_add {v w : Int16} (h : FitsShort (v.toInt + w.toInt)) : (v + w).toInt = v.toInt + w.toInt := by
  rw [Int16.toInt_add]
  exact Int.bmod_eq_of_le h.1 (Int.lt_of_le_of_lt h.2 (by decide))

theorem toInt_min (v w : Int16) : (min v w).toInt = min v.toInt w.toInt := by
  change (if v ≤ w then v else w).toInt = _
  simp only [Int16.le_iff_toInt_le]
  split
  · rename_i h
    exact (min_eq_left h).symm
  · rename_i h
    exact (min_eq_right (Int.le_of_not_le h)).symm

theorem toInt_half {v : Int16} (h : 0 ≤ v.toInt) : (v / 2).toInt = v.toInt / 2 := by
  have hmost := (fitsShort_toInt v).2
  have hquotient : v.toInt.tdiv (2 : Int16).toInt = v.toInt / 2 := Int.tdiv_eq_ediv_of_nonneg h
  rw [Int16.toInt_div, hquotient]
  exact Int.bmod_eq_of_le (by omega) (by omega)

end Word

/-- A remainder that is cut towards zero lies a step below the least one if the dividend is negative and no multiple. -/
theorem tmod_eq_emod_sub (v : Int) {s : Int} (hs : 0 < s) : v.tmod s = v % s - if v < 0 ∧ v % s ≠ 0 then s else 0 := by
  have hnat : (s.natAbs : Int) = s := Int.natAbs_of_nonneg hs.le
  rw [Int.tmod_eq_emod]
  simp only [Int.dvd_iff_emod_eq_zero]
  by_cases hv : v < 0
  · by_cases hd : v % s = 0
    · simp [hd]
    · simp [hd, hv, hv.not_ge, hnat]
  · simp [hv, not_lt.mp hv]

namespace Operand

open Word (FitsShort)

variable {α β : Type}

theorem run_bind {m : Operand α} {f : α → Operand β} {s t : Script} {a : α} (h : m s = .ok (a, t)) :
    (m >>= f) s = f a t := by
  change (m s).bind (fun p => f p.1 p.2) = f a t
  rw [h]
  rfl

theorem div_ok (v : Int) {d : Int} (hd : d ≠ 0) (s : Script) : div v d s = .ok (v.tdiv d, s) := by
  rw [div, if_neg hd]
  rfl

theorem rem_ok (v : Int) {d : Int} (hd : d ≠ 0) (s : Script) : rem v d s = .ok (v.tmod d, s) := by
  rw [rem, if_neg hd]
  rfl

/-- What is left of a number by a period that is a word. -/
theorem wrapped_ok (v : Int) {period : Int16} (hperiod : 0 < period.toInt) (s : Script) :
    ∃ r : Int16, wrapped v period.toInt s = .ok (r, s) ∧ r.toInt = v % period.toInt := by
  have hleast : 0 ≤ v % period.toInt := Int.emod_nonneg v hperiod.ne'
  have hmost : v % period.toInt < period.toInt := Int.emod_lt_of_pos v hperiod
  have hword : period.toInt ≤ 32767 := (Word.fitsShort_toInt period).2
  have hcut := tmod_eq_emod_sub v hperiod
  have hrem : (v.tmod period.toInt).toInt16.toInt = v.tmod period.toInt := by
    refine Word.toInt_toInt16 ?_
    rw [hcut, FitsShort]
    split <;> omega
  rw [wrapped, run_bind (rem_ok v hperiod.ne' s)]
  refine ⟨_, rfl, ?_⟩
  simp only [Int16.lt_iff_toInt_lt, hrem, Int16.toInt_zero]
  split
  · rename_i hnegative
    -- only the remainder of a number that is no multiple is negative
    have hback : v.tmod period.toInt + period.toInt = v % period.toInt := by
      rw [hcut] at hnegative ⊢
      split at hnegative <;> omega
    rw [hback]
    exact Word.toInt_toInt16 ⟨by omega, by omega⟩
  · rename_i hpositive
    rw [hrem]
    rw [hcut] at hpositive ⊢
    split at hpositive <;> omega

end Operand

end Adventure
