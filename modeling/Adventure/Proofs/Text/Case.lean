import Adventure.Text.Name

/-! The case of letters does not matter in names: names that are the same up to it stand for the
same paths. -/

namespace Adventure.Text

theorem toNat_toLower (c : Char) :
    c.toLower.toNat = if 65 ≤ c.toNat ∧ c.toNat ≤ 90 then c.toNat + 32 else c.toNat := by
  have hA : 'A'.val.toNat = 65 := rfl
  have hZ : 'Z'.val.toNat = 90 := rfl
  have hdiff : ('a'.val - 'A'.val).toNat = 32 := rfl
  have hval : c.toNat = c.val.toNat := rfl
  change (if h : c.val ≥ 'A'.val ∧ c.val ≤ 'Z'.val then Char.mk (c.val + ('a'.val - 'A'.val)) _ else c : Char).toNat = _
  simp only [ge_iff_le, UInt32.le_iff_toNat_le, hA, hZ]
  rw [hval]
  split
  · rename_i h
    change (c.val + ('a'.val - 'A'.val)).toNat = _
    rw [UInt32.toNat_add, hdiff]
    omega
  · rfl

theorem toLower_toLower (c : Char) : c.toLower.toLower = c.toLower := by
  apply Char.toNat_inj.mp
  rw [toNat_toLower, toNat_toLower]
  by_cases h : 65 ≤ c.toNat ∧ c.toNat ≤ 90
  · rw [if_pos h, if_neg (by omega)]
  · rw [if_neg h, if_neg h]

/-- Only letters change, and become letters. -/
theorem toLower_eq_iff {d : Char} (hd : ¬(65 ≤ d.toNat ∧ d.toNat ≤ 90 ∨ 97 ≤ d.toNat ∧ d.toNat ≤ 122)) (c : Char) :
    c.toLower = d ↔ c = d := by
  rw [← Char.toNat_inj, ← Char.toNat_inj, toNat_toLower]
  split <;> omega

theorem utf8Size_toLower (c : Char) : c.toLower.utf8Size = 1 ↔ c.utf8Size = 1 := by
  rw [Char.utf8Size_eq_one_iff, Char.utf8Size_eq_one_iff, UInt32.le_iff_toNat_le, UInt32.le_iff_toNat_le]
  change c.toLower.toNat ≤ 127 ↔ c.toNat ≤ 127
  rw [toNat_toLower]
  split <;> omega

theorem toNat_toUpper (c : Char) :
    c.toUpper.toNat = if 97 ≤ c.toNat ∧ c.toNat ≤ 122 then c.toNat - 32 else c.toNat := by
  have ha : 'a'.val.toNat = 97 := rfl
  have hz : 'z'.val.toNat = 122 := rfl
  have hdiff : ('A'.val - 'a'.val).toNat = 4294967264 := rfl
  have hval : c.toNat = c.val.toNat := rfl
  change (if h : 'a'.val ≤ c.val ∧ c.val ≤ 'z'.val then Char.mk (c.val + ('A'.val - 'a'.val)) _ else c : Char).toNat = _
  simp only [UInt32.le_iff_toNat_le, ha, hz]
  rw [hval]
  split
  · rename_i h
    change (c.val + ('A'.val - 'a'.val)).toNat = _
    rw [UInt32.toNat_add, hdiff]
    omega
  · rfl

theorem toUpper_ne_zero {c : Char} (h : c ≠ '\x00') : c.toUpper ≠ '\x00' := by
  rw [ne_eq, ← Char.toNat_inj] at h ⊢
  rw [toNat_toUpper]
  change ¬c.toNat = 0 at h
  change ¬_ = 0
  split <;> omega

theorem utf8Size_toUpper (c : Char) : c.toUpper.utf8Size = c.utf8Size := by
  have hupper := toNat_toUpper c
  have ascii {d : Char} (hd : d.toNat ≤ 127) : d.utf8Size = 1 := Char.utf8Size_eq_one_iff.mpr (UInt32.le_iff_toNat_le.mpr hd)
  split at hupper
  · rw [ascii (by omega), ascii (by omega)]
  · rw [Char.toNat_inj.mp hupper]

theorem lower_lower (s : String) : lower (lower s) = lower s := by
  simp only [lower, String.toList_ofList, List.map_map, Function.comp_def, toLower_toLower]

/-- Names that are the same up to case. -/
theorem sameName_iff (a b : String) : sameName a b = true ↔ lower a = lower b := beq_iff_eq

theorem withSlashes_lower (l : List Char) : withSlashes (l.map Char.toLower) = (withSlashes l).map Char.toLower := by
  simp only [withSlashes, List.map_map]
  refine List.map_congr_left fun c _ => ?_
  have hc : c.toLower = '\\' ↔ c = '\\' := toLower_eq_iff (by decide) c
  simp only [Function.comp_def, hc]
  split <;> rfl

/-- The path of a name, before its slashes are turned. -/
def pathChars (l : List Char) : List Char :=
  match l with
  | '.' :: '.' :: [] => []
  | '.' :: '.' :: c :: r => if c.utf8Size = 1 then r else []
  | s => "SCN/".toList ++ s

theorem pathChars_scenes {l : List Char} (h : ¬∃ r, l = '.' :: '.' :: r) : pathChars l = "SCN/".toList ++ l := by
  unfold pathChars
  split
  · exact absurd ⟨_, rfl⟩ h
  · exact absurd ⟨_, rfl⟩ h
  · rfl

theorem map_toLower_twice (l : List Char) : (l.map Char.toLower).map Char.toLower = l.map Char.toLower := by
  simp only [List.map_map, Function.comp_def, toLower_toLower]

theorem pathChars_lower (l : List Char) :
    (pathChars (l.map Char.toLower)).map Char.toLower = (pathChars l).map Char.toLower := by
  have hdot (c : Char) : c.toLower = '.' ↔ c = '.' := toLower_eq_iff (by decide) c
  by_cases h : ∃ r, l = '.' :: '.' :: r
  · obtain ⟨_ | ⟨c, r⟩, rfl⟩ := h
    · rfl
    · change List.map Char.toLower (if c.toLower.utf8Size = 1 then r.map Char.toLower else []) =
        List.map Char.toLower (if c.utf8Size = 1 then r else [])
      simp only [utf8Size_toLower]
      split
      · exact map_toLower_twice r
      · rfl
  · have hl : ¬∃ r, l.map Char.toLower = '.' :: '.' :: r := by
      rintro ⟨r, hr⟩
      rcases l with _ | ⟨c, _ | ⟨d, r'⟩⟩
      · cases hr
      · exact absurd (List.cons.inj hr).2 (by simp)
      · simp only [List.map_cons, List.cons.injEq, hdot] at hr
        exact h ⟨r', by rw [hr.1, hr.2.1]⟩
    rw [pathChars_scenes h, pathChars_scenes hl, List.map_append, List.map_append, map_toLower_twice]

/-- The path of a name is that of the name in lower case, up to case. -/
theorem lower_dataPath (s : String) : lower (dataPath (lower s)) = lower (dataPath s) := by
  have hpath (s : String) : dataPath s = String.ofList (withSlashes (pathChars s.toList)) := rfl
  simp only [hpath, lower, String.toList_ofList, ← withSlashes_lower, pathChars_lower]

theorem lower_folder (s : String) : folder (lower s) = lower (folder s) := by
  have hslash : (fun c : Char => decide (c ≠ '\\')) ∘ Char.toLower = fun c => decide (c ≠ '\\') := by
    funext c
    simp only [Function.comp_apply, ne_eq, toLower_eq_iff (d := '\\') (by decide) c]
  simp only [folder, lower, String.toList_ofList, ← List.map_reverse, List.dropWhile_map, hslash]

/-- Names that are the same up to case stand for the same path, up to case. -/
theorem dataPath_congr {a b : String} (h : lower a = lower b) : lower (dataPath a) = lower (dataPath b) := by
  rw [← lower_dataPath a, h, lower_dataPath]

/-- So do files beside them. -/
theorem folder_congr {a b : String} (h : lower a = lower b) (file : String) :
    lower (folder a ++ file) = lower (folder b ++ file) := by
  have happend (a b : String) : lower (a ++ b) = lower a ++ lower b := by
    simp only [lower, String.toList_append, List.map_append, String.ofList_append]
  rw [happend, happend, ← lower_folder, ← lower_folder, h]

end Adventure.Text
