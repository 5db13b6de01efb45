import Adventure.Proofs.Picture.Pixels

/-! Copying blocks between surfaces. Exactly the part of the block that both surfaces have is copied, unless the block
starts on the last row that both have or above it; then nothing is. -/

namespace Adventure

namespace Bytes

theorem list_copySlice (src dst : ByteArray) (i j n : Nat) :
    list (src.copySlice i dst j n) =
      (list dst).take j ++ ((list src).drop i).take n ++ (list dst).drop (j + min n (src.size - i)) := by
  have hsize : src.data.size = src.size := rfl
  have hend (d : Nat) : (dst.data.toList.drop d).take (dst.data.size - d) = dst.data.toList.drop d :=
    List.take_of_length_le (Nat.le_of_eq (by rw [List.length_drop, Array.length_toList]))
  simp only [list, ByteArray.copySlice, Array.toList_append, Array.toList_extract, List.extract_eq_take_drop,
    List.drop_zero, Nat.sub_zero, Nat.add_sub_cancel_left, hsize, hend]

/-- What a buffer holds behind a copy into it. -/
theorem getElem?_copySlice {src dst : ByteArray} {i j n : Nat} (hi : i + n ≤ src.size) (hj : j + n ≤ dst.size)
    (k : Nat) : (src.copySlice i dst j n)[k]? = if j ≤ k ∧ k < j + n then src[i + (k - j)]? else dst[k]? := by
  rw [← length_list] at hi hj
  have hn : min n (src.size - i) = n := by
    rw [← length_list]
    omega
  have htaken : ((list dst).take j).length = j := List.length_take_of_le (by omega)
  have hcopied : (((list src).drop i).take n).length = n := List.length_take_of_le (by rw [List.length_drop]; omega)
  rw [← getElem?_list, ← getElem?_list, ← getElem?_list, list_copySlice, hn, List.append_assoc]
  by_cases hbefore : k < j
  · rw [List.getElem?_append_left (htaken.symm ▸ hbefore), if_neg (by omega), List.getElem?_take_of_lt hbefore]
  · rw [List.getElem?_append_right (by omega), htaken]
    by_cases hin : k < j + n
    · rw [List.getElem?_append_left (by omega), if_pos (by omega), List.getElem?_take_of_lt (by omega),
        List.getElem?_drop]
    · rw [List.getElem?_append_right (by omega), hcopied, if_neg (by omega), List.getElem?_drop]
      congr 1
      omega

end Bytes

namespace Block

open Surface

variable {src dst : Surface} {x y w h : Int} {x₂ y₂ : Nat}

/-- The pixels of a block, up to a last column and a last row. -/
def area (x y w h : Int) (x₂ y₂ : Nat) (X Y : Nat) : Prop :=
  x ≤ X ∧ X < x + w ∧ y ≤ Y ∧ Y < y + h ∧ X ≤ x₂ ∧ Y ≤ y₂

instance (x y w h : Int) (x₂ y₂ X Y : Nat) : Decidable (area x y w h x₂ y₂ X Y) := inferInstanceAs (Decidable (_ ∧ _))

/-- A pixel that is mixed into what was there: colours from `start` up to but not including `stop` leave it. -/
def mixed (start stop : Int) (p old : Option UInt8) : Option UInt8 :=
  match p with
  | some c => if start ≤ c.toNat ∧ (c.toNat : Int) < stop then old else some c
  | none => old

theorem clip?_none (hc : clip? x y w h x₂ y₂ = none) (hw : 0 < w) (hh : 0 < h) (hy : y < y₂) (X Y : Nat) :
    ¬ area x y w h x₂ y₂ X Y := by
  unfold clip? at hc
  unfold area
  split at hc
  · omega
  · cases hc

theorem clip?_some {c : Clipped} (hc : clip? x y w h x₂ y₂ = some c) :
    (0 < w ∧ 0 < h ∧ y < y₂) ∧ c.x + c.w ≤ x₂ + 1 ∧ c.y + c.h ≤ y₂ + 1 ∧
      ∀ X Y, block c.x c.y c.w c.h X Y ↔ area x y w h x₂ y₂ X Y := by
  unfold clip? at hc
  split at hc
  · cases hc
  · obtain rfl := Option.some.inj hc
    dsimp only
    refine ⟨by omega, by omega, by omega, fun X Y => ?_⟩
    unfold block area
    omega

section

variable (hsrc : src.shape.Full) (hdst : dst.shape.Full) {c : Clipped} (hx : c.x + c.w ≤ min src.w dst.w + 1)
include hsrc hdst hx

theorem repaints_copyRow {y : Nat} (hy : y ≤ min src.h dst.h) :
    Repaints (row c.x y c.w) (fun X Y _ => src.pixel? X Y) dst
      { dst with bits := copyRow src.bits (y * src.pitch + c.x) dst.bits (y * dst.pitch + c.x) c.w } := by
  have hpsrc : src.w + 1 ≤ src.pitch := hsrc.pitch
  have hpdst : dst.w + 1 ≤ dst.pitch := hdst.pitch
  have hsize := row_le (n := c.x + c.w) hsrc (by omega) (Nat.le_min.mp hy).1
  have hsize' := row_le (n := c.x + c.w) hdst (by omega) (Nat.le_min.mp hy).2
  rw [← Nat.add_assoc] at hsize hsize'
  have hrow (X Y : Nat) (hX : X < dst.pitch) :
      row c.x y c.w X Y ↔ y * dst.pitch + c.x ≤ Y * dst.pitch + X ∧ Y * dst.pitch + X < y * dst.pitch + c.x + c.w := by
    constructor
    · rintro ⟨rfl, hX⟩
      omega
    · intro h
      -- the place stands in the row that is copied, at some column of it
      obtain ⟨k, hk⟩ := Nat.exists_eq_add_of_le h.1
      have hkw : k < c.w := by omega
      rw [Nat.add_assoc, place_inj hX (by omega)] at hk
      obtain ⟨rfl, rfl⟩ := hk
      exact ⟨rfl, Nat.le_add_right _ _, Nat.add_lt_add_left hkw _⟩
  have hcopied (X Y : Nat) := Bytes.getElem?_copySlice hsize hsize' (Y * dst.pitch + X)
  constructor
  · simp only [shape, size_copyRow]
  · intro X hX Y hA
    rw [pixel?, copyRow, if_pos ⟨hsize, hsize'⟩]
    refine (hcopied X Y).trans ?_
    rw [if_pos ((hrow X Y hX).mp hA), pixel?]
    obtain ⟨rfl, hle, -⟩ := hA
    congr 1
    omega
  · intro X hX Y hA
    rw [pixel?, copyRow, if_pos ⟨hsize, hsize'⟩]
    refine (hcopied X Y).trans ?_
    rw [if_neg fun h => hA ((hrow X Y hX).mpr h), pixel?]

theorem repaints_copyRows {y n : Nat} (hy : y + n ≤ min src.h dst.h + 1) :
    Repaints (block c.x y c.w n) (fun X Y _ => src.pixel? X Y) dst (copyRows src c y n dst) := by
  induction n generalizing y dst with
  | zero => exact .block_zero
  | succ n ih =>
    have hrow := repaints_copyRow hsrc hdst hx (y := y) (by omega)
    exact hrow.block_succ (ih (hrow.full hdst) hx (by rw [hrow.h_eq]; omega))

end

section

variable (hsrc : src.shape.Full) (hdst : dst.shape.Full) (start stop : Int)
include hsrc hdst

theorem repaints_mixRow {x y n : Nat} (hx : x + n ≤ min src.w dst.w + 1) (hy : y ≤ min src.h dst.h) :
    Repaints (row x y n) (fun X Y => mixed start stop (src.pixel? X Y)) dst
      (mixRow (fun p => start ≤ p.toNat ∧ (p.toNat : Int) < stop) src y x n dst) := by
  induction n generalizing x dst with
  | zero => exact .row_zero
  | succ n ih =>
    have hpitch : src.w + 1 ≤ src.pitch := hsrc.pitch
    obtain ⟨p, hp⟩ := exists_pixel (X := x) (Y := y) hsrc (by omega) (by omega)
    rw [mixRow, hp]
    dsimp only
    split
    · rename_i hkeep
      have hsame : Repaints (row x y 1) (fun X Y => mixed start stop (src.pixel? X Y)) dst dst :=
        .keepPixel (by rw [hp, mixed, if_pos (of_decide_eq_true hkeep)])
      exact hsame.row_succ (ih hdst (by omega) hy)
    · rename_i hkeep
      have hset := Repaints.setPixel (f := fun X Y => mixed start stop (src.pixel? X Y)) hdst (x := x) (y := y) (p := p)
        (by omega) (by omega) (by rw [hp, mixed, if_neg fun h => hkeep (decide_eq_true h)])
      exact hset.row_succ (ih (hset.full hdst) (by rw [hset.w_eq]; omega) hy)

theorem repaints_mixRows {c : Clipped} (hx : c.x + c.w ≤ min src.w dst.w + 1) {y n : Nat}
    (hy : y + n ≤ min src.h dst.h + 1) :
    Repaints (block c.x y c.w n) (fun X Y => mixed start stop (src.pixel? X Y)) dst
      (mixRows (fun p => start ≤ p.toNat ∧ (p.toNat : Int) < stop) src c y n dst) := by
  induction n generalizing y dst with
  | zero => exact .block_zero
  | succ n ih =>
    have hrow := repaints_mixRow hsrc hdst start stop hx (y := y) (by omega)
    exact hrow.block_succ (ih (hrow.full hdst) (by rw [hrow.w_eq]; exact hx) (by rw [hrow.h_eq]; omega))

end

/-! ### Whole blocks -/

/-- What is left of a block is drawn as it is, or nothing is. -/
theorem repaints_clipped {f : Nat → Nat → Option UInt8 → Option UInt8} {t : Surface} (hblock : 0 < w ∧ 0 < h ∧ y < y₂)
    (hnone : clip? x y w h x₂ y₂ = none → t = dst)
    (hsome : ∀ c, clip? x y w h x₂ y₂ = some c → Repaints (block c.x c.y c.w c.h) f dst t) :
    Repaints (area x y w h x₂ y₂) f dst t := by
  obtain ⟨hw, hh, hy⟩ := hblock
  cases hc : clip? x y w h x₂ y₂ with
  | none =>
    rw [hnone hc]
    exact .same fun X Y hA => absurd hA (clip?_none hc hw hh hy X Y)
  | some c =>
    obtain ⟨-, -, -, harea⟩ := clip?_some hc
    exact (hsome c hc).congr harea fun _ _ _ => rfl

/-- A block that is empty, or starts on the last row that both surfaces have or above it, is not copied. -/
theorem clip?_of_empty (hempty : ¬ (0 < w ∧ 0 < h ∧ y < y₂)) : clip? x y w h x₂ y₂ = none := by
  cases hc : clip? x y w h x₂ y₂ with
  | none => rfl
  | some c => exact absurd (clip?_some hc).1 hempty

section

variable (hsrc : src.shape.Full) (hdst : dst.shape.Full)
include hsrc hdst

theorem repaints_copy (hblock : 0 < w ∧ 0 < h ∧ y < (min src.h dst.h : Nat)) :
    Repaints (area x y w h (min src.w dst.w) (min src.h dst.h)) (fun X Y _ => src.pixel? X Y) dst
      (copy x y w h src dst) := by
  refine repaints_clipped hblock (fun hc => ?_) fun c hc => ?_
  · rw [copy, hc]
  · obtain ⟨-, hx, hy, -⟩ := clip?_some hc
    rw [copy, hc]
    exact repaints_copyRows hsrc hdst hx hy

theorem repaints_mix (hblock : 0 < w ∧ 0 < h ∧ y < (min src.h dst.h : Nat)) (start stop : Int) :
    Repaints (area x y w h (min src.w dst.w) (min src.h dst.h)) (fun X Y => mixed start stop (src.pixel? X Y)) dst
      (mix x y w h src dst start stop) := by
  refine repaints_clipped hblock (fun hc => ?_) fun c hc => ?_
  · rw [mix, hc]
  · obtain ⟨-, hx, hy, -⟩ := clip?_some hc
    rw [mix, hc]
    exact repaints_mixRows hsrc hdst start stop hx hy

/-- Where no colours are left out, mixing is copying. -/
theorem mix_eq_copy {start stop : Int} (hle : stop ≤ start) :
    mix x y w h src dst start stop = copy x y w h src dst := by
  by_cases hblock : 0 < w ∧ 0 < h ∧ y < (min src.h dst.h : Nat)
  · refine Repaints.unique hdst ((repaints_mix hsrc hdst hblock start stop).congr (fun _ _ => Iff.rfl) fun X Y hA => ?_)
      (repaints_copy hsrc hdst hblock)
    have hpitch : src.w + 1 ≤ src.pitch := hsrc.pitch
    obtain ⟨-, -, -, -, hX, hY⟩ := hA
    obtain ⟨p, hp⟩ := exists_pixel (X := X) (Y := Y) hsrc (by omega) (by omega)
    funext old
    rw [hp, mixed, if_neg (by omega)]
  · rw [mix, copy, clip?_of_empty hblock]

/-- A block is copied where both surfaces have it and nowhere else, not in the padding either, and nothing at all if it
is empty or starts on the last row of one of them or above. Mixing does the same, but colours from `start` up to but not
including `stop` are left out. -/
theorem copies_block (x y w h start stop : Int) :
    (0 < w ∧ 0 < h ∧ y < (min src.h dst.h : Nat) →
      Repaints (area x y w h (min src.w dst.w) (min src.h dst.h)) (fun X Y _ => src.pixel? X Y) dst
          (copy x y w h src dst) ∧
        Repaints (area x y w h (min src.w dst.w) (min src.h dst.h)) (fun X Y => mixed start stop (src.pixel? X Y)) dst
          (mix x y w h src dst start stop)) ∧
    (¬ (0 < w ∧ 0 < h ∧ y < (min src.h dst.h : Nat)) →
      copy x y w h src dst = dst ∧ mix x y w h src dst start stop = dst) ∧
    (stop ≤ start → mix x y w h src dst start stop = copy x y w h src dst) := by
  refine ⟨fun hblock => ⟨repaints_copy hsrc hdst hblock, repaints_mix hsrc hdst hblock start stop⟩, fun hempty => ?_,
    mix_eq_copy hsrc hdst⟩
  rw [copy, mix, clip?_of_empty hempty]
  exact ⟨rfl, rfl⟩

end

/-- Four rows of four colours, all different. -/
def numbered : Surface := ⟨3, 3, 4, Bytes.ofList [0, 1, 2, 3, 4, 5, 6, 7, 8, 9, 10, 11, 12, 13, 14, 15]⟩

/-- Three rows of five pixels, padded to eight. -/
def plain : Surface := ⟨4, 2, 8, Bytes.replicate 24 77⟩

/-- A block that hangs over three sides of the two surfaces. -/
theorem copies_block_numbered : numbered.shape.Full ∧ plain.shape.Full ∧
    (copy (-1) 1 3 9 numbered plain).pixel? 1 2 = some 9 ∧ (copy (-1) 1 3 9 numbered plain).pixel? 2 2 = some 77 ∧
    (mix (-1) 1 3 9 numbered plain 9 10).pixel? 1 2 = some 77 := by
  have hsrc : numbered.shape.Full := ⟨by decide, by decide⟩
  have hdst : plain.shape.Full := ⟨by decide, by decide⟩
  obtain ⟨hcopy, hmix⟩ := (copies_block hsrc hdst (-1) 1 3 9 9 10).1 (by decide)
  refine ⟨hsrc, hdst, ?_, ?_, ?_⟩
  · rw [hcopy.inside 1 (by decide) 2 (by decide)]
    decide
  · rw [hcopy.outside 2 (by decide) 2 (by decide)]
    decide
  · rw [hmix.inside 1 (by decide) 2 (by decide)]
    decide

end Block

end Adventure
