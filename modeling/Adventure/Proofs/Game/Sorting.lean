import Adventure.Game.Depth

/-! Sorting by depth. The passes go by gaps of half the number of entries, of half of that and so on; the last of them goes
by steps of one, and it sorts whatever the others leave. -/

namespace Adventure

namespace Depth

variable {z : Nat → Int16} {a b : Array Nat} {gap j k : Nat}

/-! ### Passes -/

theorem rise_perm (z : Nat → Int16) (gap : Nat) (a : Array Nat) (j : Nat) : (rise z gap a j).Perm a := by
  fun_induction rise z gap a j with
  | case1 => exact .rfl
  | case2 a j _ _ ih => exact ih.trans (Array.swap_perm _ _)
  | case3 => exact .rfl

theorem size_rise (z : Nat → Int16) (gap : Nat) (a : Array Nat) (j : Nat) : (rise z gap a j).size = a.size :=
  (rise_perm z gap a j).size_eq

theorem pass_perm (z : Nat → Int16) (a : Array Nat) (gap : Nat) : (pass z a gap).Perm a := by
  unfold pass
  generalize List.range' gap (a.size - gap) = l
  induction l generalizing a with
  | nil => exact .rfl
  | cons j l ih => exact (ih (rise z gap a j)).trans (rise_perm z gap a j)

theorem sort_perm (z : Nat → Int16) (n : Nat) : (sort z n).Perm (List.range n) := by
  have passes (l : List Nat) (a : Array Nat) : (l.foldl (pass z) a).Perm a := by
    induction l generalizing a with
    | nil => exact .rfl
    | cons gap l ih => exact (ih (pass z a gap)).trans (pass_perm z a gap)
  have h := (passes (halves n) (Array.range n)).toList
  rwa [Array.toList_range] at h

/-- The first `k` entries go from the greatest depth to the least, if the one in place `j` is left
out of those in front of which there are others. -/
def SortedBut (z : Nat → Int16) (a : Array Nat) (j k : Nat) : Prop :=
  ∀ p q, (hq : q < a.size) → (hpq : p < q) → q < k → q ≠ j → z a[q] ≤ z a[p]

/-- Moving an entry to the front past one of less depth leaves no other entry out of order. -/
theorem SortedBut.swap (h : SortedBut z a (j + 1) k) (hj : j + 1 < a.size) (hlt : z a[j] < z a[j + 1]) (hk : j + 1 < k) :
    SortedBut z (a.swap j (j + 1)) j k := by
  intro p q hq hpq hqk hqj
  rw [Array.size_swap] at hq
  simp only [Array.getElem_swap]
  rcases Nat.lt_trichotomy q (j + 1) with hlow | rfl | hhigh
  · have hp : p ≠ j ∧ p ≠ j + 1 ∧ q ≠ j + 1 := by omega
    simp only [hqj, hp, if_false]
    exact h p q hq hpq hqk (by omega)
  · rw [if_neg (by omega), if_pos rfl]
    by_cases hp : p = j
    · simp only [hp, if_true]
      exact Int16.le_of_lt hlt
    · rw [if_neg hp, if_neg (by omega)]
      exact h p j (by omega) (by omega) (by omega) (by omega)
  · rw [if_neg (by omega), if_neg (by omega)]
    by_cases hp : p = j
    · simp only [hp, if_true]
      exact h (j + 1) q hq (by omega) hqk (by omega)
    · rw [if_neg hp]
      by_cases hp' : p = j + 1
      · simp only [hp', if_true]
        exact h j q hq (by omega) hqk (by omega)
      · rw [if_neg hp']
        exact h p q hq hpq hqk (by omega)

/-- An entry rises to its place among those in front of it. -/
theorem sorted_rise (h : SortedBut z a j k) (hj : j < k) (hk : k ≤ a.size) :
    SortedBut z (rise z 1 a j) 0 k := by
  induction j generalizing a with
  | zero =>
    rw [rise, dif_neg (by omega)]
    exact h
  | succ j ih =>
    have hbounds : 0 < 1 ∧ 1 ≤ j + 1 ∧ j + 1 < a.size := by omega
    rw [rise, dif_pos hbounds]
    simp only [Nat.add_sub_cancel]
    split
    · rename_i hge
      intro p q hq hpq hqk _
      by_cases hqj : q = j + 1
      · subst hqj
        by_cases hp : p = j
        · subst hp
          exact hge
        · exact Int16.le_trans hge (h p j (by omega) (by omega) (by omega) (by omega))
      · exact h p q hq hpq hqk hqj
    · rename_i hlt
      exact ih (h.swap hbounds.2.2 (Int16.not_le.mp hlt) hj) (by omega) (by rwa [Array.size_swap])

/-- A pass by steps of one sorts. -/
theorem sorted_pass (z : Nat → Int16) (a : Array Nat) : SortedBut z (pass z a 1) 0 a.size := by
  have passes (n k : Nat) (a : Array Nat) (hn : k + n = a.size) (h : SortedBut z a 0 k) :
      SortedBut z ((List.range' k n).foldl (rise z 1) a) 0 a.size := by
    induction n generalizing k a with
    | zero => rwa [← hn]
    | succ n ih =>
      have hnext : SortedBut z a k (k + 1) := fun p q hq hpq hqk hqk' => h p q hq hpq (by omega) (by omega)
      have hrisen := sorted_rise hnext (Nat.lt_succ_self k) (by omega)
      have hsize := size_rise z 1 a k
      rw [List.range'_succ, List.foldl_cons, ← hsize]
      exact ih (k + 1) (rise z 1 a k) (by omega) hrisen
  by_cases hsize : a.size = 0
  · intro p q hq hpq hqk
    omega
  · exact passes (a.size - 1) 1 a (by omega) fun p q hq hpq hqk => by omega

/-- The last pass is one by steps of one. -/
theorem halves_last {n : Nat} (hn : 2 ≤ n) : ∃ l, halves n = l ++ [1] := by
  induction n using Nat.strongRecOn with
  | ind n ih =>
    rw [halves, dif_neg (by omega)]
    by_cases h : n / 2 = 1
    · refine ⟨[], ?_⟩
      rw [h, halves, dif_pos (by omega)]
      rfl
    · obtain ⟨l, hl⟩ := ih (n / 2) (by omega) (by omega)
      exact ⟨n / 2 :: l, by rw [hl]; rfl⟩

theorem sort_sorted (z : Nat → Int16) (n : Nat) : (sort z n).Pairwise fun i j => z j ≤ z i := by
  by_cases hn : 2 ≤ n
  · obtain ⟨l, hl⟩ := halves_last hn
    rw [sort, hl, List.foldl_append, List.foldl_cons, List.foldl_nil]
    generalize l.foldl (pass z) (Array.range n) = a
    have hsize := (pass_perm z a 1).size_eq
    rw [List.pairwise_iff_getElem]
    intro p q hp hq hpq
    rw [Array.length_toList] at hq
    exact sorted_pass z a p q hq hpq (by omega) (by omega)
  · have hlength := (sort_perm z n).length_eq
    rw [List.length_range] at hlength
    match hsort : sort z n with
    | [] => exact .nil
    | [i] => exact List.pairwise_singleton _ i
    | i :: j :: l =>
      rw [hsort] at hlength
      simp only [List.length_cons] at hlength
      omega

/-! ### Loops -/

/-- The entry in place `j` moves to the front by steps of `gap`, past entries of less depth: the loop within a pass. -/
inductive Rises (z : Nat → Int16) (gap : Nat) : Nat → Array Nat → Array Nat → Prop
  | front {j : Nat} {a : Array Nat} (hj : j < gap) : Rises z gap j a a
  | rests {j : Nat} {a : Array Nat} (hgap : gap ≤ j) (hj : j < a.size) (hz : z a[j - gap] ≥ z a[j]) : Rises z gap j a a
  | swaps {j : Nat} {a b : Array Nat} (hgap : gap ≤ j) (hj : j < a.size) (hz : z a[j - gap] < z a[j])
      (hrest : Rises z gap (j - gap) (a.swap (j - gap) j) b) : Rises z gap j a b

/-- The loop of a pass from place `j` on. -/
inductive Sweeps (z : Nat → Int16) (gap : Nat) : Nat → Array Nat → Array Nat → Prop
  | done {j : Nat} {a : Array Nat} (hj : a.size ≤ j) : Sweeps z gap j a a
  | next {j : Nat} {a b c : Array Nat} (hj : j < a.size) (hrises : Rises z gap j a b)
      (hrest : Sweeps z gap (j + 1) b c) : Sweeps z gap j a c

/-- The loop over the gaps, each of which is half of the one before it. -/
inductive Sorts (z : Nat → Int16) : Nat → Array Nat → Array Nat → Prop
  | done {a : Array Nat} : Sorts z 0 a a
  | next {gap : Nat} {a b c : Array Nat} (hgap : 0 < gap) (hsweeps : Sweeps z gap gap a b)
      (hrest : Sorts z (gap / 2) b c) : Sorts z gap a c

theorem rises_iff (hgap : 0 < gap) (hj : j < a.size) : Rises z gap j a b ↔ b = rise z gap a j := by
  constructor
  · intro h
    induction h with
    | front hfront => rw [rise, dif_neg (by omega)]
    | rests hle hj hz => rw [rise, dif_pos ⟨hgap, hle, hj⟩, if_pos hz]
    | @swaps j a b hle hj hz _ ih =>
      rw [rise, dif_pos ⟨hgap, hle, hj⟩, if_neg (Int16.not_le.mpr hz)]
      exact ih (by rw [Array.size_swap]; omega)
  · rintro rfl
    fun_induction rise z gap a j with
    | case1 a j h hz => exact .rests h.2.1 h.2.2 hz
    | case2 a j h hz ih => exact .swaps h.2.1 h.2.2 (Int16.not_le.mp hz) (ih (by rw [Array.size_swap]; omega))
    | case3 a j h => exact .front (by omega)

theorem sweeps_iff (hgap : 0 < gap) : Sweeps z gap j a b ↔ b = (List.range' j (a.size - j)).foldl (rise z gap) a := by
  induction hn : a.size - j generalizing j a with
  | zero =>
    constructor
    · rintro (hj | ⟨hj, -, -⟩)
      · rfl
      · omega
    · rintro rfl
      exact .done (by omega)
  | succ n ih =>
    have hj : j < a.size := by omega
    have hrest : (rise z gap a j).size - (j + 1) = n := by
      rw [size_rise]
      omega
    rw [List.range'_succ, List.foldl_cons, ← ih hrest]
    constructor
    · rintro (hj' | ⟨-, hrises, hrest⟩)
      · omega
      · rwa [← (rises_iff hgap hj).mp hrises]
    · exact .next hj ((rises_iff hgap hj).mpr rfl)

theorem sorts_iff {n : Nat} : Sorts z (n / 2) a b ↔ b = (halves n).foldl (pass z) a := by
  induction n using Nat.strongRecOn generalizing a with
  | ind n ih =>
    rw [halves]
    by_cases hn : n / 2 = 0
    · rw [dif_pos hn, hn]
      constructor
      · rintro (_ | ⟨hgap, -, -⟩)
        · rfl
        · exact absurd hgap (Nat.lt_irrefl 0)
      · rintro rfl
        exact .done
    · rw [dif_neg hn, List.foldl_cons, ← ih (n / 2) (by omega)]
      have hgap : 0 < n / 2 := Nat.pos_of_ne_zero hn
      generalize n / 2 = gap at hgap
      constructor
      · intro h
        cases h with
        | done => omega
        | next _ hsweeps hrest =>
          have hpass : _ = pass z a gap := (sweeps_iff hgap).mp hsweeps
          rwa [← hpass]
      · exact .next hgap ((sweeps_iff hgap).mpr rfl)

/-- The slots of a scene are sorted by their depths. However many numbers there are and whatever their depths, the loops
come to an end, with the one list that they lead to; it holds each number once, from the greatest depth to the least. -/
theorem slots_sorted :
    (∀ t : SceneTables, t.sortedSlots = sort (fun i => (t.object i).z) t.objectsCount) ∧
    ∀ (z : Nat → Int16) (n : Nat),
      (∀ a, Sorts z (n / 2) (Array.range n) a ↔ a.toList = sort z n) ∧
      (sort z n).Perm (List.range n) ∧ (sort z n).Pairwise fun i j => z j ≤ z i := by
  refine ⟨fun t => rfl, fun z n => ⟨fun a => ?_, sort_perm z n, sort_sorted z n⟩⟩
  rw [sorts_iff, sort, Array.toList_inj]

end Depth

end Adventure
