import Adventure.Proofs.Script.Remainders

/-! Snapping to a grid. The number that is wanted leaves the remainder of a value and lies in a window of one step; it
is looked for from a multiple of the step below the window, with one step up at most. Because quotients and remainders are
cut towards zero, the sum can lie further below: what comes out has the right remainder and lies below the end of the
window, but it can miss the window by one step or by two. -/

namespace Adventure.Operand

open Word (FitsShort)

/-- The number in the window of one step from `low` on that leaves the remainder of a value. -/
def windowed (value low step : Int) : Int := low + (value - low) % step

/-- A multiple of the step that is looked for below the window, and the remainder. -/
def snapSum (value low step : Int) : Int := (low - step + 1).tdiv step * step + value.tmod step

/-- How many steps the sum lies below the wanted number: one where the remainder is negative, one where the quotient is
positive and cut to the one below, and one where the value leaves less than the start of the window does. -/
def stepsBelow (value low step : Int) : Nat :=
  (if value < 0 ∧ value % step ≠ 0 then 1 else 0) + (if step ≤ low ∧ (low + 1) % step ≠ 0 then 1 else 0) +
    if value % step < low % step then 1 else 0

section Integers

variable {value low step : Int}

theorem windowed_mem (value low : Int) (hstep : 0 < step) :
    low ≤ windowed value low step ∧ windowed value low step < low + step := by
  have hleast := Int.emod_nonneg (value - low) hstep.ne'
  have hmost := Int.emod_lt_of_pos (value - low) hstep
  unfold windowed
  omega

theorem windowed_modEq (value low step : Int) : windowed value low step ≡ value [ZMOD step] := by
  have hrest : (value - low) % step ≡ value - low [ZMOD step] := Int.mod_modEq _ _
  have hsum := hrest.add_left low
  rwa [add_sub_cancel] at hsum

theorem emod_sub_emod (value low : Int) (hstep : 0 < step) :
    (value - low) % step = value % step - low % step + if value % step < low % step then step else 0 := by
  have hvalue := Int.emod_lt_of_pos value hstep
  have hlow := Int.emod_lt_of_pos low hstep
  have hvalue₀ := Int.emod_nonneg value hstep.ne'
  have hlow₀ := Int.emod_nonneg low hstep.ne'
  rw [Int.sub_emod]
  split
  · rw [← Int.add_emod_right, Int.emod_eq_of_lt (by omega) (by omega)]
  · rw [add_zero, Int.emod_eq_of_lt (by omega) (by omega)]

theorem emod_succ (low : Int) (hstep : 0 < step) :
    (low + 1) % step = if low % step + 1 = step then 0 else low % step + 1 := by
  have hlow := Int.emod_lt_of_pos low hstep
  have hlow₀ := Int.emod_nonneg low hstep.ne'
  rw [← Int.emod_add_emod]
  split
  · rename_i hlast
    rw [hlast, Int.emod_self]
  · exact Int.emod_eq_of_lt (by omega) (by omega)

/-- The multiple that is looked for is the last one up to `low`, or the one below that. -/
theorem tdiv_mul_eq (low : Int) (hstep : 0 < step) :
    (low - step + 1).tdiv step * step = low - low % step - if step ≤ low ∧ (low + 1) % step ≠ 0 then step else 0 := by
  have hsplit : (low - step + 1).tdiv step * step = low - step + 1 - (low - step + 1).tmod step := by
    have hsum := Int.tmod_add_tdiv_mul (low - step + 1) step
    omega
  have hshift : low - step + 1 = low + 1 - step := by omega
  have hmod : (low - step + 1) % step = (low + 1) % step := by rw [hshift, Int.sub_emod_right]
  have hnonneg := Int.emod_nonneg low hstep.ne'
  rw [hsplit, tmod_eq_emod_sub _ hstep, hmod, emod_succ low hstep]
  -- the numerator is below zero just when `low` is less than a step, but for a multiple
  by_cases hlast : low % step + 1 = step
  · simp only [hlast, if_true, ne_eq, not_true, and_false, if_false]
    omega
  · have hnext : low % step + 1 ≠ 0 := by omega
    have hself : low + 1 = step → low % step = low := fun h => Int.emod_eq_of_lt (by omega) (by omega)
    simp only [hlast, if_false, hnext, ne_eq, not_false_eq_true, and_true]
    split <;> split <;> omega

/-- The sum leaves the remainder of the value, and lies below the wanted number by whole steps. -/
theorem snapSum_eq (value low : Int) (hstep : 0 < step) :
    snapSum value low step = windowed value low step - stepsBelow value low step * step := by
  rw [snapSum, windowed, stepsBelow, tdiv_mul_eq low hstep, tmod_eq_emod_sub value hstep, emod_sub_emod value low hstep]
  push_cast
  split <;> split <;> split <;> omega

/-- Of the steps that are missing one is made up for. -/
theorem snapped_eq (value low : Int) (hstep : 0 < step) :
    (if snapSum value low step < low then snapSum value low step + step else snapSum value low step) =
      windowed value low step - (stepsBelow value low step - 1 : Nat) * step := by
  obtain ⟨hleast, hmost⟩ := windowed_mem value low hstep
  rw [snapSum_eq value low hstep]
  cases hsteps : stepsBelow value low step with
  | zero =>
    have hzero : ((0 : Nat) : Int) * step = 0 := Int.zero_mul step
    rw [hzero, Int.sub_zero, if_neg (Int.not_lt.mpr hleast)]
  | succ k =>
    have hnonneg : 0 ≤ (k : Int) * step := Int.mul_nonneg (Int.natCast_nonneg k) hstep.le
    rw [Nat.cast_succ, add_one_mul, Nat.add_sub_cancel, if_pos (by omega)]
    omega

theorem stepsBelow_le (value low step : Int) : stepsBelow value low step ≤ 3 := by
  unfold stepsBelow
  split <;> split <;> split <;> decide

/-- A number below the wanted one by whole steps. -/
theorem sub_steps_mem (value low : Int) (hstep : 0 < step) (k : Nat) :
    windowed value low step - k * step ≡ value [ZMOD step] ∧ windowed value low step - k * step < low + step ∧
      (low ≤ windowed value low step - k * step ↔ k = 0) := by
  obtain ⟨hleast, hmost⟩ := windowed_mem value low hstep
  have hnonneg : 0 ≤ (k : Int) * step := Int.mul_nonneg (Int.natCast_nonneg k) hstep.le
  refine ⟨?_, by omega, ?_⟩
  · have hmod := (windowed_modEq value low step).sub (Int.modEq_zero_iff_dvd.mpr (Int.dvd_mul_left (k : Int) step))
    rwa [Int.sub_zero] at hmod
  · cases k with
    | zero => simpa using hleast
    | succ k =>
      have hk : 0 ≤ (k : Int) * step := Int.mul_nonneg (Int.natCast_nonneg k) hstep.le
      rw [Nat.cast_succ, add_one_mul]
      simp only [Nat.succ_ne_zero, iff_false]
      omega

end Integers

section Words

variable {value low step : Int16}

/-- No conversion to sixteen bits loses anything while a value is snapped. -/
def SnapsWithin (value low step : Int16) : Prop :=
  FitsShort (snapSum value.toInt low.toInt step.toInt) ∧
    (snapSum value.toInt low.toInt step.toInt < low.toInt →
      FitsShort (snapSum value.toInt low.toInt step.toInt + step.toInt))

instance (value low step : Int16) : Decidable (SnapsWithin value low step) := inferInstanceAs (Decidable (_ ∧ _))

theorem snap_ok (hstep : 0 < step.toInt) (hfits : SnapsWithin value low step) (s : Script) :
    ∃ r : Int16, snap value low step s = .ok (r, s) ∧
      r.toInt = windowed value.toInt low.toInt step.toInt -
        (stepsBelow value.toInt low.toInt step.toInt - 1 : Nat) * step.toInt := by
  obtain ⟨hsum, hnext⟩ := hfits
  have hword := Word.toInt_toInt16 hsum
  rw [snap, run_bind (div_ok _ hstep.ne' s), run_bind (rem_ok _ hstep.ne' s)]
  refine ⟨_, rfl, ?_⟩
  rw [← snapped_eq value.toInt low.toInt hstep]
  change (if (snapSum value.toInt low.toInt step.toInt).toInt16.toInt < low.toInt then
    ((snapSum value.toInt low.toInt step.toInt).toInt16.toInt + step.toInt).toInt16 else _ : Int16).toInt = _
  rw [hword]
  split
  · rename_i hbelow
    exact Word.toInt_toInt16 (hnext hbelow)
  · exact hword

/-- Snapping gives a number with the remainder of the value, below the end of the window. It is the wanted number less
a step for each step that the sum lies below it, but for one; so it is in the window just when at most one step is missing,
and at most two steps below it. -/
theorem snap_window (hstep : 0 < step.toInt) (hfits : SnapsWithin value low step) (s : Script) :
    ∃ r : Int16, snap value low step s = .ok (r, s) ∧
      r.toInt = windowed value.toInt low.toInt step.toInt -
        (stepsBelow value.toInt low.toInt step.toInt - 1 : Nat) * step.toInt ∧
      r.toInt ≡ value.toInt [ZMOD step.toInt] ∧
      low.toInt - 2 * step.toInt ≤ r.toInt ∧ r.toInt < low.toInt + step.toInt ∧
      (low.toInt ≤ r.toInt ↔ stepsBelow value.toInt low.toInt step.toInt ≤ 1) := by
  obtain ⟨r, hr, heq⟩ := snap_ok hstep hfits s
  obtain ⟨hmod, hmost, hin⟩ := sub_steps_mem value.toInt low.toInt hstep
    (stepsBelow value.toInt low.toInt step.toInt - 1)
  have hfew : (stepsBelow value.toInt low.toInt step.toInt - 1 : Nat) * step.toInt ≤ 2 * step.toInt := by
    have hsteps := stepsBelow_le value.toInt low.toInt step.toInt
    exact Int.mul_le_mul_of_nonneg_right (by omega) hstep.le
  have hleast := (windowed_mem value.toInt low.toInt hstep).1
  rw [← heq] at hmod hmost hin
  exact ⟨r, hr, heq, hmod, by omega, hmost, hin.trans Nat.sub_eq_zero_iff_le⟩

/-- From the window of 6 to 9 a value of 0 is snapped to 4. -/
theorem snap_window_six :
    0 < (4 : Int16).toInt ∧ SnapsWithin 0 6 4 ∧ ∃ r : Int16, snap 0 6 4 ⟨.empty, 0⟩ = .ok (r, ⟨.empty, 0⟩) ∧ r.toInt = 4 := by
  have hstep : 0 < (4 : Int16).toInt := by decide
  have hfits : SnapsWithin 0 6 4 := by decide
  obtain ⟨r, hr, heq, -⟩ := snap_window hstep hfits ⟨.empty, 0⟩
  exact ⟨hstep, hfits, r, hr, heq.trans (by decide)⟩

/-- Not every value is snapped into the window. -/
theorem not_always_windowed : ¬∀ value low step : Int16, 0 < step.toInt → SnapsWithin value low step → ∀ s : Script,
    ∃ r : Int16, snap value low step s = .ok (r, s) ∧ r.toInt ≡ value.toInt [ZMOD step.toInt] ∧
      low.toInt ≤ r.toInt ∧ r.toInt < low.toInt + step.toInt := by
  intro h
  obtain ⟨r, hr, -, hleast, -⟩ := h 0 6 4 (by decide) (by decide) ⟨.empty, 0⟩
  have hfour : snap 0 6 4 ⟨.empty, 0⟩ = .ok (4, ⟨.empty, 0⟩) := rfl
  obtain rfl : (4 : Int16) = r := by
    rw [hfour] at hr
    exact congrArg Prod.fst (Except.ok.inj hr)
  exact absurd hleast (by decide)

end Words

end Adventure.Operand
