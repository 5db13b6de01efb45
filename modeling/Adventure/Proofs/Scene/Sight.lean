import Adventure.Scene.Box
import Mathlib.Analysis.Convex.Basic
import Mathlib.Tactic.FieldSimp
import Mathlib.Tactic.Linarith
import Mathlib.Tactic.Ring

/-! Boxes in the way of a segment. The test is made with whole numbers only: where the line of the segment meets an edge
is cut to a whole number, and towards which side depends on the end that the segment is told from. What it says of
the plane is right but for less than one pixel: a box that has a point of the segment is found, and a box that is found
has a point less than one pixel beside the segment on one axis. -/

namespace Adventure

/-! ### Segments of the plane -/

namespace Plane

variable {a b p : ℚ × ℚ} {k : ℚ}

theorem mem_segment_iff : p ∈ segment ℚ a b ↔
    ∃ t : ℚ, 0 ≤ t ∧ t ≤ 1 ∧ a.1 + t * (b.1 - a.1) = p.1 ∧ a.2 + t * (b.2 - a.2) = p.2 := by
  rw [segment_eq_image']
  constructor
  · rintro ⟨t, ⟨h₀, h₁⟩, rfl⟩
    exact ⟨t, h₀, h₁, rfl, rfl⟩
  · rintro ⟨t, h₀, h₁, hx, hy⟩
    exact ⟨t, ⟨h₀, h₁⟩, Prod.ext hx hy⟩

theorem swap_mem_segment (h : p ∈ segment ℚ a b) : p.swap ∈ segment ℚ a.swap b.swap := by
  obtain ⟨t, h₀, h₁, hx, hy⟩ := mem_segment_iff.mp h
  exact mem_segment_iff.mpr ⟨t, h₀, h₁, hy, hx⟩

theorem fst_mem_uIcc (h : p ∈ segment ℚ a b) : p.1 ∈ Set.uIcc a.1 b.1 := by
  rw [← segment_eq_uIcc]
  exact (Prod.segment_subset a b h).1

theorem exists_fst_eq (h : k ∈ Set.uIcc a.1 b.1) : ∃ q ∈ segment ℚ a b, q.1 = k := by
  rw [← segment_eq_uIcc, segment_eq_image'] at h
  obtain ⟨t, ⟨h₀, h₁⟩, rfl⟩ := h
  exact ⟨(a.1 + t * (b.1 - a.1), a.2 + t * (b.2 - a.2)), mem_segment_iff.mpr ⟨t, h₀, h₁, rfl, rfl⟩, rfl⟩

theorem exists_snd_eq (h : k ∈ Set.uIcc a.2 b.2) : ∃ q ∈ segment ℚ a b, q.2 = k := by
  obtain ⟨q, hq, hk⟩ := exists_fst_eq (a := a.swap) (b := b.swap) h
  exact ⟨q.swap, swap_mem_segment hq, hk⟩

/-- Between a number outside of a stretch and one in it lies an end of the stretch. -/
theorem exists_end {x y l h : ℚ} (hx : x ∉ Set.Icc l h) (hy : y ∈ Set.Icc l h) :
    ∃ k ∈ Set.uIcc x y, k ∈ Set.Icc l h ∧ (k = l ∨ k = h) := by
  have hlh : l ≤ h := hy.1.trans hy.2
  obtain hl | hh : x < l ∨ h < x := by
    by_contra hin
    rw [not_or, not_lt, not_lt] at hin
    exact hx hin
  · exact ⟨l, Set.mem_uIcc.mpr (Or.inl ⟨hl.le, hy.1⟩), Set.left_mem_Icc.mpr hlh, Or.inl rfl⟩
  · exact ⟨h, Set.mem_uIcc.mpr (Or.inr ⟨hy.2, hh.le⟩), Set.right_mem_Icc.mpr hlh, Or.inr rfl⟩

variable {lo hi : ℚ × ℚ}

theorem mem_Icc_iff : p ∈ Set.Icc lo hi ↔ p.1 ∈ Set.Icc lo.1 hi.1 ∧ p.2 ∈ Set.Icc lo.2 hi.2 := by
  simp only [Set.mem_Icc, Prod.le_def]
  tauto

/-- From beside a rectangle a segment comes into it through the lower or the upper edge. -/
theorem exists_on_edge_snd (hp : p ∈ Set.Icc lo hi) (hx : a.1 ∈ Set.Icc lo.1 hi.1) (hy : a.2 ∉ Set.Icc lo.2 hi.2) :
    ∃ q ∈ segment ℚ a p, q ∈ Set.Icc lo hi ∧ (q.2 = lo.2 ∨ q.2 = hi.2) := by
  obtain ⟨hp₁, hp₂⟩ := mem_Icc_iff.mp hp
  obtain ⟨k, hk, hin, hedge⟩ := exists_end hy hp₂
  obtain ⟨q, hq, rfl⟩ := exists_snd_eq hk
  have hq₁ : q.1 ∈ Set.Icc lo.1 hi.1 := Set.uIcc_subset_Icc hx hp₁ (fst_mem_uIcc hq)
  exact ⟨q, hq, mem_Icc_iff.mpr ⟨hq₁, hin⟩, hedge⟩

/-- A segment that comes into a rectangle from outside crosses one of its edges. -/
theorem exists_on_edge (hp : p ∈ Set.Icc lo hi) (ha : a ∉ Set.Icc lo hi) :
    ∃ q ∈ segment ℚ a p, q ∈ Set.Icc lo hi ∧ ((q.1 = lo.1 ∨ q.1 = hi.1) ∨ (q.2 = lo.2 ∨ q.2 = hi.2)) := by
  obtain ⟨hp₁, hp₂⟩ := mem_Icc_iff.mp hp
  by_cases hx : a.1 ∈ Set.Icc lo.1 hi.1
  · have hy : a.2 ∉ Set.Icc lo.2 hi.2 := fun hy => ha (mem_Icc_iff.mpr ⟨hx, hy⟩)
    obtain ⟨q, hq, hin, hedge⟩ := exists_on_edge_snd hp hx hy
    exact ⟨q, hq, hin, Or.inr hedge⟩
  · -- the line of the left or the right edge is crossed, perhaps above or below the edge
    obtain ⟨k, hk, hr₁, hline⟩ := exists_end hx hp₁
    obtain ⟨r, hr, rfl⟩ := exists_fst_eq hk
    by_cases hr₂ : r.2 ∈ Set.Icc lo.2 hi.2
    · exact ⟨r, hr, mem_Icc_iff.mpr ⟨hr₁, hr₂⟩, Or.inl hline⟩
    · obtain ⟨q, hq, hin, hedge⟩ := exists_on_edge_snd hp hr₁ hr₂
      have hsub : segment ℚ r p ⊆ segment ℚ a p := (convex_segment a p).segment_subset hr (right_mem_segment ℚ a p)
      exact ⟨q, hsub hq, hin, Or.inr hedge⟩

end Plane

namespace SceneBox

open Plane

/-- The points that a box covers. -/
def area (b : SceneBox) : Set (ℚ × ℚ) := Set.Icc (↑b.x₁.toInt, ↑b.y₁.toInt) (↑b.x₂.toInt, ↑b.y₂.toInt)

/-- The points of a segment between two places, with both of them. -/
def sight (x₁ y₁ x₂ y₂ : Int) : Set (ℚ × ℚ) := segment ℚ (↑x₁, ↑y₁) (↑x₂, ↑y₂)

/-- Two points less than one pixel from each other along one axis. -/
def Beside (p q : ℚ × ℚ) : Prop := p.1 = q.1 ∧ |p.2 - q.2| < 1 ∨ p.2 = q.2 ∧ |p.1 - q.1| < 1

theorem mem_sight_iff {u₁ v₁ u₂ v₂ : Int} {p : ℚ × ℚ} : p ∈ sight u₁ v₁ u₂ v₂ ↔
    ∃ t : ℚ, 0 ≤ t ∧ t ≤ 1 ∧ (u₁ : ℚ) + t * (u₂ - u₁) = p.1 ∧ (v₁ : ℚ) + t * (v₂ - v₁) = p.2 := mem_segment_iff

theorem swap_mem_sight {u₁ v₁ u₂ v₂ : Int} {p : ℚ × ℚ} (h : p ∈ sight u₁ v₁ u₂ v₂) : p.swap ∈ sight v₁ u₁ v₂ u₂ := by
  have hswap := swap_mem_segment h
  exact hswap

theorem fst_mem_sight {u₁ v₁ u₂ v₂ : Int} {p : ℚ × ℚ} (h : p ∈ sight u₁ v₁ u₂ v₂) : p.1 ∈ Set.uIcc (u₁ : ℚ) u₂ := by
  have hfst := fst_mem_uIcc h
  exact hfst

theorem snd_mem_sight {u₁ v₁ u₂ v₂ : Int} {p : ℚ × ℚ} (h : p ∈ sight u₁ v₁ u₂ v₂) : p.2 ∈ Set.uIcc (v₁ : ℚ) v₂ :=
  fst_mem_sight (swap_mem_sight h)

/-! ### Cut numbers -/

theorem abs_sub_tdiv_lt (n : Int) {d : Int} (hd : d ≠ 0) : |(n : ℚ) / d - (n.tdiv d : ℚ)| < 1 := by
  have hd' : (0 : ℚ) < |(d : ℚ)| := abs_pos.mpr (Int.cast_ne_zero.mpr hd)
  have hsplit : (n : ℚ) / d - (n.tdiv d : ℚ) = (n.tmod d : ℚ) / d := by
    have hn : (n : ℚ) = d * n.tdiv d + n.tmod d := by exact_mod_cast (Int.mul_tdiv_add_tmod n d).symm
    have hd₀ : (d : ℚ) ≠ 0 := Int.cast_ne_zero.mpr hd
    field_simp
    linarith
  have hrest : |n.tmod d| < |d| := by
    rw [Int.abs_eq_natAbs, Int.abs_eq_natAbs, Int.natAbs_tmod]
    exact_mod_cast Nat.mod_lt _ (Int.natAbs_pos.mpr hd)
  rw [hsplit, abs_div, div_lt_one hd']
  exact_mod_cast hrest

/-- Whole numbers that bound a number from below bound the whole numbers next to it. -/
theorem le_of_near {k n : Int} {v : ℚ} (hn : |(n : ℚ) - v| < 1) (h : (k : ℚ) ≤ v) : k ≤ n := by
  have hlt : (k : ℚ) < n + 1 := by linarith [(abs_lt.mp hn).1]
  have hlt' : k < n + 1 := by exact_mod_cast hlt
  exact Int.lt_add_one_iff.mp hlt'

theorem ge_of_near {k n : Int} {v : ℚ} (hn : |(n : ℚ) - v| < 1) (h : v ≤ (k : ℚ)) : n ≤ k := by
  have hlt : (n : ℚ) < k + 1 := by linarith [(abs_lt.mp hn).2]
  have hlt' : n < k + 1 := by exact_mod_cast hlt
  exact Int.lt_add_one_iff.mp hlt'

variable {u₁ v₁ u₂ v₂ u lo hi lo' hi' : Int} {t : ℚ}

/-- The cut number is next to where the lines meet, also beyond the ends of the segment. -/
theorem abs_crossing_sub_lt (h : u₁ ≠ u₂) (v₁ v₂ : Int) (hline : (u₁ : ℚ) + t * (u₂ - u₁) = u) :
    |(crossing u₁ v₁ u₂ v₂ u : ℚ) - (v₁ + t * (v₂ - v₁))| < 1 := by
  have hcut := abs_sub_tdiv_lt ((v₁ - v₂) * (u₁ - u)) (sub_ne_zero.mpr h)
  have hd : (u₁ : ℚ) - u₂ ≠ 0 := sub_ne_zero.mpr (Int.cast_injective.ne h)
  have hshare : (((v₁ - v₂) * (u₁ - u) : Int) : ℚ) / ((u₁ - u₂ : Int) : ℚ) = t * (v₁ - v₂) := by
    push_cast
    rw [div_eq_iff hd, ← hline]
    ring
  rw [hshare] at hcut
  rw [crossing]
  push_cast at hcut ⊢
  convert hcut using 2
  ring

theorem within_iff {a b n : Int} : within lo hi a b n = true ↔ (lo ≤ n ∧ n ≤ hi) ∧ min a b ≤ n ∧ n ≤ max a b := by
  simp only [within, decide_eq_true_eq, and_assoc]

/-- Where a segment crosses an edge, the cut number is in the edge and in the segment. -/
theorem within_crossing {q : ℚ × ℚ} (h : u₁ ≠ u₂) (hq : q ∈ sight u₁ v₁ u₂ v₂) (hu : q.1 = u)
    (hv : q.2 ∈ Set.Icc (lo : ℚ) hi) : within lo hi v₁ v₂ (crossing u₁ v₁ u₂ v₂ u) = true := by
  have hseg : q.2 ∈ Set.Icc ((min v₁ v₂ : Int) : ℚ) ((max v₁ v₂ : Int) : ℚ) := by
    rw [Int.cast_min, Int.cast_max]
    exact snd_mem_sight hq
  obtain ⟨t, -, -, hx, hy⟩ := mem_sight_iff.mp hq
  have hnear : |(crossing u₁ v₁ u₂ v₂ u : ℚ) - q.2| < 1 := hy ▸ abs_crossing_sub_lt h v₁ v₂ (hx.trans hu)
  exact within_iff.mpr ⟨⟨le_of_near hnear hv.1, ge_of_near hnear hv.2⟩, le_of_near hnear hseg.1, ge_of_near hnear hseg.2⟩

/-! ### Beyond the ends -/

/-- Beyond an end of a segment only the end is in the segment and next to the line. -/
theorem eq_end_of_near {n : Int} (ht : t ≤ 0) (hn : |(n : ℚ) - (v₁ + t * (v₂ - v₁))| < 1)
    (hseg : min v₁ v₂ ≤ n ∧ n ≤ max v₁ v₂) : n = v₁ := by
  obtain hle | hle := le_total v₁ v₂
  · have hcast : (v₁ : ℚ) ≤ v₂ := by exact_mod_cast hle
    rw [min_eq_left hle] at hseg
    exact le_antisymm (ge_of_near hn (by nlinarith)) hseg.1
  · have hcast : (v₂ : ℚ) ≤ v₁ := by exact_mod_cast hle
    rw [max_eq_left hle] at hseg
    exact le_antisymm hseg.2 (le_of_near hn (by nlinarith))

/-- A stretch with a number of the segment and one beyond its end has the end. -/
theorem end_mem (ht : t ≤ 0) (hline : (u₁ : ℚ) + t * (u₂ - u₁) = u) (hu : lo ≤ u ∧ u ≤ hi)
    (hmeets : lo ≤ max u₁ u₂ ∧ min u₁ u₂ ≤ hi) : lo ≤ u₁ ∧ u₁ ≤ hi := by
  obtain hle | hle := le_total u₁ u₂
  · have hcast : (u₁ : ℚ) ≤ u₂ := by exact_mod_cast hle
    have hbeyond : (u : ℚ) ≤ u₁ := by nlinarith
    rw [min_eq_left hle] at hmeets
    exact ⟨hu.1.trans (by exact_mod_cast hbeyond), hmeets.2⟩
  · have hcast : (u₂ : ℚ) ≤ u₁ := by exact_mod_cast hle
    have hbeyond : (u₁ : ℚ) ≤ u := by nlinarith
    rw [max_eq_left hle] at hmeets
    exact ⟨hmeets.1, le_trans (by exact_mod_cast hbeyond) hu.2⟩

theorem mem_Icc_cast {x y : Int} (hx : lo ≤ x ∧ x ≤ hi) (hy : lo' ≤ y ∧ y ≤ hi') :
    ((x : ℚ), (y : ℚ)) ∈ Set.Icc ((lo : ℚ), (lo' : ℚ)) (↑hi, ↑hi') := by
  rw [mem_Icc_iff]
  simpa only [Set.mem_Icc, Int.cast_le] using And.intro hx hy

/-- A cut number that is in the edge and in the segment shows a point of the segment next to the edge, or an end of the
segment in the box. -/
theorem exists_near (h : u₁ ≠ u₂) (hu : lo ≤ u ∧ u ≤ hi) (hmeets : lo ≤ max u₁ u₂ ∧ min u₁ u₂ ≤ hi)
    (hw : within lo' hi' v₁ v₂ (crossing u₁ v₁ u₂ v₂ u) = true) :
    ∃ p ∈ sight u₁ v₁ u₂ v₂, ∃ q ∈ Set.Icc ((lo : ℚ), (lo' : ℚ)) (↑hi, ↑hi'),
      p.1 = q.1 ∧ |p.2 - q.2| < 1 := by
  have hd : (u₂ : ℚ) - u₁ ≠ 0 := sub_ne_zero.mpr (Int.cast_injective.ne h.symm)
  obtain ⟨t, hline⟩ : ∃ t : ℚ, (u₁ : ℚ) + t * (u₂ - u₁) = u := ⟨(u - u₁) / (u₂ - u₁), by rw [div_mul_cancel₀ _ hd]; ring⟩
  have hnear := abs_crossing_sub_lt h v₁ v₂ hline
  obtain ⟨hedge, hseg⟩ := within_iff.mp hw
  obtain hbefore | hbefore := le_total t 0
  · have hv : crossing u₁ v₁ u₂ v₂ u = v₁ := eq_end_of_near hbefore hnear hseg
    have hin := mem_Icc_cast (end_mem hbefore hline hu hmeets) (hv ▸ hedge)
    exact ⟨_, left_mem_segment ℚ _ _, _, hin, rfl, by simp⟩
  obtain hbehind | hbehind := le_total 1 t
  · -- the same from the other end
    have hline' : (u₂ : ℚ) + (1 - t) * (u₁ - u₂) = u := by linarith
    have hnear' : |(crossing u₁ v₁ u₂ v₂ u : ℚ) - (v₂ + (1 - t) * (v₁ - v₂))| < 1 := by
      convert hnear using 2
      ring
    have hv : crossing u₁ v₁ u₂ v₂ u = v₂ :=
      eq_end_of_near (sub_nonpos.mpr hbehind) hnear' (by rwa [min_comm, max_comm])
    have hend := end_mem (sub_nonpos.mpr hbehind) hline' hu (by rwa [min_comm, max_comm])
    exact ⟨_, right_mem_segment ℚ _ _, _, mem_Icc_cast hend (hv ▸ hedge), rfl, by simp⟩
  · refine ⟨(↑u, v₁ + t * (v₂ - v₁)), mem_sight_iff.mpr ⟨t, hbefore, hbehind, hline, rfl⟩, _, mem_Icc_cast hu hedge, rfl, ?_⟩
    rw [abs_sub_comm]
    exact hnear

/-- A segment along an axis has a point in common with a box that it overlaps on both axes. -/
theorem exists_common (hbox : lo' ≤ hi') (hu : lo ≤ u ∧ u ≤ hi) (hv : lo' ≤ max v₁ v₂ ∧ min v₁ v₂ ≤ hi') :
    ∃ p ∈ sight u v₁ u v₂, p ∈ Set.Icc ((lo : ℚ), (lo' : ℚ)) (↑hi, ↑hi') := by
  have hk : ((max lo' (min v₁ v₂) : Int) : ℚ) ∈ Set.uIcc (v₁ : ℚ) v₂ := by
    rw [Set.uIcc, Set.mem_Icc, ← Int.cast_min, ← Int.cast_max]
    exact ⟨by exact_mod_cast le_max_right _ _, by exact_mod_cast max_le hv.1 min_le_max⟩
  obtain ⟨p, hp, hsnd⟩ := exists_snd_eq (a := ((u : ℚ), (v₁ : ℚ))) (b := ((u : ℚ), (v₂ : ℚ))) hk
  have hfst : p.1 = u := by simpa using fst_mem_sight hp
  have hin := mem_Icc_cast hu ⟨le_max_left lo' (min v₁ v₂), max_le hbox hv.2⟩
  rw [← hfst, ← hsnd] at hin
  exact ⟨p, hp, hin⟩

/-! ### Boxes -/

variable {b : SceneBox} {x₁ y₁ x₂ y₂ : Int}

theorem contains_iff {x y : Int} : b.contains x y = true ↔ ((x : ℚ), (y : ℚ)) ∈ b.area := by
  simp [contains, area, and_assoc, and_left_comm]

theorem meetsRect_iff : b.meetsRect x₁ x₂ y₁ y₂ = true ↔
    (b.x₁.toInt ≤ max x₁ x₂ ∧ min x₁ x₂ ≤ b.x₂.toInt) ∧ (b.y₁.toInt ≤ max y₁ y₂ ∧ min y₁ y₂ ≤ b.y₂.toInt) := by
  simp only [meetsRect, decide_eq_true_eq, and_assoc]

theorem overlap_of_mem {c d : Int} {v : ℚ} (hbox : v ∈ Set.Icc (lo : ℚ) hi) (hseg : v ∈ Set.uIcc (c : ℚ) d) :
    lo ≤ max c d ∧ min c d ≤ hi := by
  rw [Set.uIcc, Set.mem_Icc, ← Int.cast_min, ← Int.cast_max] at hseg
  exact ⟨by exact_mod_cast hbox.1.trans hseg.2, by exact_mod_cast hseg.1.trans hbox.2⟩

/-- A box that is on and has a point of the segment is found. -/
theorem blocks_of_shared (hon : b.state = 1) {p : ℚ × ℚ} (hp : p ∈ sight x₁ y₁ x₂ y₂) (hb : p ∈ b.area) :
    b.blocks x₁ y₁ x₂ y₂ = true := by
  obtain ⟨hb₁, hb₂⟩ := mem_Icc_iff.mp hb
  have hmeets : b.meetsRect x₁ x₂ y₁ y₂ = true :=
    meetsRect_iff.mpr ⟨overlap_of_mem hb₁ (fst_mem_sight hp), overlap_of_mem hb₂ (snd_mem_sight hp)⟩
  simp only [blocks, decide_eq_true_eq]
  refine ⟨hon, ?_⟩
  by_cases hstart : b.contains x₁ y₁ = true
  · exact Or.inl hstart
  refine Or.inr (Or.inr ⟨hmeets, ?_⟩)
  by_cases hx : x₁ = x₂
  · exact Or.inl hx
  by_cases hy : y₁ = y₂
  · exact Or.inr (Or.inl hy)
  -- the segment comes into the box through an edge, where the cut number is found
  obtain ⟨q, hq, hin, hedge⟩ := exists_on_edge hb fun h => hstart (contains_iff.mpr h)
  have hq' : q ∈ sight x₁ y₁ x₂ y₂ := (convex_segment _ _).segment_subset (left_mem_segment ℚ _ _) hp hq
  obtain ⟨hin₁, hin₂⟩ := mem_Icc_iff.mp hin
  refine Or.inr (Or.inr ?_)
  obtain (hleft | hright) | (hlow | hhigh) := hedge
  · exact Or.inl (within_crossing hx hq' hleft hin₂)
  · exact Or.inr (Or.inl (within_crossing hx hq' hright hin₂))
  · exact Or.inr (Or.inr (Or.inl (within_crossing hy (swap_mem_sight hq') hlow hin₁)))
  · exact Or.inr (Or.inr (Or.inr (within_crossing hy (swap_mem_sight hq') hhigh hin₁)))

theorem Beside.refl (p : ℚ × ℚ) : Beside p p := Or.inl ⟨rfl, by simp⟩

/-- A cut number on the left or the right edge. -/
theorem exists_beside_column (h : x₁ ≠ x₂) (hmeets : b.meetsRect x₁ x₂ y₁ y₂ = true)
    (hu : b.x₁.toInt ≤ u ∧ u ≤ b.x₂.toInt)
    (hw : within b.y₁.toInt b.y₂.toInt y₁ y₂ (crossing x₁ y₁ x₂ y₂ u) = true) :
    ∃ p ∈ sight x₁ y₁ x₂ y₂, ∃ q ∈ b.area, Beside p q := by
  obtain ⟨p, hp, q, hq, hnear⟩ := exists_near h hu (meetsRect_iff.mp hmeets).1 hw
  exact ⟨p, hp, q, hq, Or.inl hnear⟩

/-- A cut number on the lower or the upper edge. -/
theorem exists_beside_row (h : y₁ ≠ y₂) (hmeets : b.meetsRect x₁ x₂ y₁ y₂ = true)
    (hu : b.y₁.toInt ≤ u ∧ u ≤ b.y₂.toInt)
    (hw : within b.x₁.toInt b.x₂.toInt x₁ x₂ (crossing y₁ x₁ y₂ x₂ u) = true) :
    ∃ p ∈ sight x₁ y₁ x₂ y₂, ∃ q ∈ b.area, Beside p q := by
  obtain ⟨p, hp, q, hq, hnear⟩ := exists_near h hu (meetsRect_iff.mp hmeets).2 hw
  have hq' : q.swap ∈ b.area := mem_Icc_iff.mpr (mem_Icc_iff.mp hq).symm
  exact ⟨p.swap, swap_mem_sight hp, q.swap, hq', Or.inr hnear⟩

/-- A segment along an axis that a box overlaps has a point of the box. -/
theorem exists_shared (hx : b.x₁ ≤ b.x₂) (hy : b.y₁ ≤ b.y₂) (hmeets : b.meetsRect x₁ x₂ y₁ y₂ = true)
    (h : x₁ = x₂ ∨ y₁ = y₂) : ∃ p ∈ sight x₁ y₁ x₂ y₂, p ∈ b.area := by
  obtain ⟨hcolumns, hrows⟩ := meetsRect_iff.mp hmeets
  obtain rfl | rfl := h
  · rw [max_self, min_self] at hcolumns
    exact exists_common (Int16.le_iff_toInt_le.mp hy) hcolumns hrows
  · rw [max_self, min_self] at hrows
    obtain ⟨p, hp, hin⟩ := exists_common (Int16.le_iff_toInt_le.mp hx) hrows hcolumns
    exact ⟨p.swap, swap_mem_sight hp, mem_Icc_iff.mpr (mem_Icc_iff.mp hin).symm⟩

/-- A box that is found is next to the segment. -/
theorem exists_beside (hx : b.x₁ ≤ b.x₂) (hy : b.y₁ ≤ b.y₂) (h : b.blocks x₁ y₁ x₂ y₂ = true) :
    ∃ p ∈ sight x₁ y₁ x₂ y₂, ∃ q ∈ b.area, Beside p q := by
  have hcolumns := Int16.le_iff_toInt_le.mp hx
  have hrows := Int16.le_iff_toInt_le.mp hy
  simp only [blocks, decide_eq_true_eq] at h
  obtain ⟨-, hstart | hstop | ⟨hmeets, hfound⟩⟩ := h
  · exact ⟨_, left_mem_segment ℚ _ _, _, contains_iff.mp hstart, .refl _⟩
  · exact ⟨_, right_mem_segment ℚ _ _, _, contains_iff.mp hstop, .refl _⟩
  by_cases hflat : x₁ = x₂ ∨ y₁ = y₂
  · obtain ⟨p, hp, hb⟩ := exists_shared hx hy hmeets hflat
    exact ⟨p, hp, p, hb, .refl p⟩
  obtain ⟨hx', hy'⟩ := not_or.mp hflat
  obtain hflat | hflat | hleft | hright | hlow | hhigh := hfound
  · exact absurd hflat hx'
  · exact absurd hflat hy'
  · exact exists_beside_column hx' hmeets ⟨le_refl _, hcolumns⟩ hleft
  · exact exists_beside_column hx' hmeets ⟨hcolumns, le_refl _⟩ hright
  · exact exists_beside_row hy' hmeets ⟨le_refl _, hrows⟩ hlow
  · exact exists_beside_row hy' hmeets ⟨hrows, le_refl _⟩ hhigh

/-- A box that is on and has a point of a segment is in its way; a box in the way of a segment comes nearer to it than
one pixel along an axis; a box that is not on is in nobody's way. -/
theorem blocks_sight (b : SceneBox) (x₁ y₁ x₂ y₂ : Int) :
    (b.state = 1 → (sight x₁ y₁ x₂ y₂ ∩ b.area).Nonempty → b.blocks x₁ y₁ x₂ y₂ = true) ∧
    (b.x₁ ≤ b.x₂ → b.y₁ ≤ b.y₂ → b.blocks x₁ y₁ x₂ y₂ = true →
      ∃ p ∈ sight x₁ y₁ x₂ y₂, ∃ q ∈ b.area, Beside p q) ∧
    (b.state ≠ 1 → b.blocks x₁ y₁ x₂ y₂ = false) := by
  refine ⟨fun hon ⟨p, hp, hb⟩ => blocks_of_shared hon hp hb, exists_beside, fun hoff => ?_⟩
  simp [blocks, hoff]

/-- A box of two columns and two rows. -/
def squareBox : SceneBox := { x₁ := 1, x₂ := 2, y₁ := 1, y₂ := 2, state := 1 }

/-- A segment that passes the box half a pixel below its corner is found, and so is one through the box while it is on. -/
theorem blocks_sight_squareBox :
    squareBox.blocks 0 1 2 0 = true ∧ (∃ p ∈ sight 0 1 2 0, ∃ q ∈ squareBox.area, Beside p q) ∧
      squareBox.blocks 0 0 3 3 = true ∧ ({ squareBox with state := 2 } : SceneBox).blocks 0 0 3 3 = false := by
  obtain ⟨-, hnear, -⟩ := blocks_sight squareBox 0 1 2 0
  obtain ⟨hshared, -, -⟩ := blocks_sight squareBox 0 0 3 3
  obtain ⟨-, -, hoff⟩ := blocks_sight { squareBox with state := 2 } 0 0 3 3
  have hcommon : (sight 0 0 3 3 ∩ squareBox.area).Nonempty := by
    have hcorner : squareBox.contains 1 1 = true := by decide
    exact ⟨(1, 1), mem_sight_iff.mpr ⟨1 / 3, by norm_num⟩, by simpa using contains_iff.mp hcorner⟩
  exact ⟨by decide, hnear (by decide) (by decide) (by decide), hshared rfl hcommon, hoff (by decide)⟩

/-- Told from its other end, the segment beside the box is free. -/
example : squareBox.blocks 2 0 0 1 = false := by decide

end SceneBox

end Adventure
