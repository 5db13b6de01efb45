import Adventure.Proofs.Picture.Shape

/-! Drawing on a surface, said pixel by pixel: some area is repainted, and all other pixels stay, those of the padding
behind the last column among them. Areas that are repainted one after the other add up. -/

namespace Adventure

namespace Bytes

theorem getElem?_put (b : ByteArray) (i : Nat) (v : UInt8) (k : Nat) :
    (put b i v)[k]? = if k = i ∧ i < b.size then some v else b[k]? := by
  rw [← getElem?_list, ← getElem?_list, list_put, List.getElem?_set, length_list]
  by_cases hk : i = k
  · subst hk
    by_cases hi : i < b.size
    · rw [if_pos rfl, if_pos hi, if_pos ⟨rfl, hi⟩]
    · rw [if_pos rfl, if_neg hi, if_neg fun h => hi h.2, List.getElem?_eq_none (Nat.not_lt.mp hi)]
  · rw [if_neg hk, if_neg fun h => hk h.1.symm]

end Bytes

namespace Surface

variable {s t u : Surface} {x y X Y n : Nat}

/-- Two places of a surface are different in column or row. -/
theorem place_inj {pitch : Nat} (hX : X < pitch) (hx : x < pitch) : Y * pitch + X = y * pitch + x ↔ X = x ∧ Y = y := by
  constructor
  · intro h
    have hcolumn := congrArg (· % pitch) h
    have hrow := congrArg (· / pitch) h
    have hpos : 0 < pitch := Nat.zero_lt_of_lt hX
    simp only [Nat.mul_comm _ pitch, Nat.mul_add_mod, Nat.mod_eq_of_lt hX, Nat.mod_eq_of_lt hx,
      Nat.mul_add_div hpos, Nat.div_eq_of_lt hX, Nat.div_eq_of_lt hx, Nat.add_zero] at hcolumn hrow
    exact ⟨hcolumn, hrow⟩
  · rintro ⟨rfl, rfl⟩
    rfl

/-- There is room for every row. -/
theorem row_le (hs : s.shape.Full) (hn : n ≤ s.pitch) (hY : Y ≤ s.h) : Y * s.pitch + n ≤ s.bits.size := by
  have hsize : s.bits.size = s.pitch * (s.h + 1) := hs.size
  have hrow : (Y + 1) * s.pitch ≤ (s.h + 1) * s.pitch := Nat.mul_le_mul_right _ (Nat.succ_le_succ hY)
  rw [hsize, Nat.mul_comm s.pitch]
  rw [Nat.succ_mul] at hrow
  omega

theorem place_lt (hs : s.shape.Full) (hX : X < s.pitch) (hY : Y ≤ s.h) : Y * s.pitch + X < s.bits.size :=
  row_le (n := X + 1) hs hX hY

/-- Every pixel of a row that is there has a colour. -/
theorem exists_pixel (hs : s.shape.Full) (hX : X < s.pitch) (hY : Y ≤ s.h) : ∃ p, s.pixel? X Y = some p :=
  ⟨_, getElem?_pos s.bits _ (place_lt hs hX hY)⟩

theorem pixel?_setPixel (hs : s.shape.Full) (hx : x ≤ s.w) (hy : y ≤ s.h) (hX : X < s.pitch) (p : UInt8) :
    (s.setPixel x y p).pixel? X Y = if X = x ∧ Y = y then some p else s.pixel? X Y := by
  have hx' : x < s.pitch := Nat.lt_of_le_of_lt hx hs.pitch
  have hin := place_lt hs hx' hy
  have hput := Bytes.getElem?_put s.bits (y * s.pitch + x) p (Y * s.pitch + X)
  simp only [hin, and_true, place_inj hX hx'] at hput
  exact hput

/-- A surface is its shape and its pixels, with those of the padding. -/
theorem eq_of_pixels (hs : s.shape.Full) (hshape : t.shape = s.shape)
    (h : ∀ X < s.pitch, ∀ Y, t.pixel? X Y = s.pixel? X Y) : t = s := by
  have hpos : 0 < s.pitch := Nat.lt_of_lt_of_le (Nat.succ_pos s.w) hs.pitch
  have hpitch : t.pitch = s.pitch := congrArg Shape.pitch hshape
  have hbits : t.bits = s.bits := by
    apply Bytes.list_inj
    apply List.ext_getElem?
    intro i
    have hi := h (i % s.pitch) (Nat.mod_lt i hpos) (i / s.pitch)
    rw [pixel?, pixel?, hpitch, Nat.mul_comm, Nat.div_add_mod] at hi
    rw [Bytes.getElem?_list, Bytes.getElem?_list, hi]
  obtain ⟨w, h, pitch, bits⟩ := t
  simp only [shape, Shape.mk.injEq] at hshape
  obtain ⟨rfl, rfl, rfl, -⟩ := hshape
  subst hbits
  rfl

/-! ### Areas -/

/-- The `n` pixels of row `y` from column `x` on. -/
def row (x y n : Nat) (X Y : Nat) : Prop := Y = y ∧ x ≤ X ∧ X < x + n

def block (x y w h : Nat) (X Y : Nat) : Prop := x ≤ X ∧ X < x + w ∧ y ≤ Y ∧ Y < y + h

theorem row_one : row x y 1 X Y ↔ X = x ∧ Y = y := by
  unfold row
  omega

/-- The pixels of an area are changed and the others stay. What a pixel becomes may depend on its place and on what it
was. -/
structure Repaints (area : Nat → Nat → Prop) (change : Nat → Nat → Option UInt8 → Option UInt8) (s t : Surface) :
    Prop where
  shape : t.shape = s.shape
  inside : ∀ X < s.pitch, ∀ Y, area X Y → t.pixel? X Y = change X Y (s.pixel? X Y)
  outside : ∀ X < s.pitch, ∀ Y, ¬ area X Y → t.pixel? X Y = s.pixel? X Y

namespace Repaints

variable {A B : Nat → Nat → Prop} {f g : Nat → Nat → Option UInt8 → Option UInt8}

theorem w_eq (h : Repaints A f s t) : t.w = s.w := congrArg Shape.w h.shape

theorem h_eq (h : Repaints A f s t) : t.h = s.h := congrArg Shape.h h.shape

theorem pitch_eq (h : Repaints A f s t) : t.pitch = s.pitch := congrArg Shape.pitch h.shape

theorem full (h : Repaints A f s t) (hs : s.shape.Full) : t.shape.Full := h.shape ▸ hs

theorem same (h : ∀ X Y, A X Y → f X Y (s.pixel? X Y) = s.pixel? X Y) : Repaints A f s s :=
  ⟨rfl, fun X _ Y hA => (h X Y hA).symm, fun _ _ _ _ => rfl⟩

theorem congr (h : Repaints A f s t) (hAB : ∀ X Y, A X Y ↔ B X Y) (hfg : ∀ X Y, A X Y → f X Y = g X Y) :
    Repaints B g s t where
  shape := h.shape
  inside X hX Y hB := by
    have hA := (hAB X Y).mpr hB
    rw [h.inside X hX Y hA, hfg X Y hA]
  outside X hX Y hB := h.outside X hX Y fun hA => hB ((hAB X Y).mp hA)

/-- Pixels that are changed to what they are may be counted as well. -/
theorem extend (h : Repaints A f s t) (hAB : ∀ X Y, A X Y → B X Y)
    (hsame : ∀ X Y, B X Y → ¬ A X Y → f X Y (s.pixel? X Y) = s.pixel? X Y) : Repaints B f s t where
  shape := h.shape
  inside X hX Y hB := by
    by_cases hA : A X Y
    · exact h.inside X hX Y hA
    · rw [h.outside X hX Y hA, hsame X Y hB hA]
  outside X hX Y hB := h.outside X hX Y fun hA => hB (hAB X Y hA)

/-- Two areas that share no pixel are repainted one after the other. -/
theorem trans (h : Repaints A f s t) (h' : Repaints B f t u) (hdisjoint : ∀ X Y, A X Y → ¬ B X Y) :
    Repaints (fun X Y => A X Y ∨ B X Y) f s u where
  shape := h'.shape.trans h.shape
  inside X hX Y hAB := by
    have hX' : X < t.pitch := h.pitch_eq ▸ hX
    obtain hA | hB := hAB
    · rw [h'.outside X hX' Y (hdisjoint X Y hA), h.inside X hX Y hA]
    · rw [h'.inside X hX' Y hB, h.outside X hX Y fun hA => hdisjoint X Y hA hB]
  outside X hX Y hAB := by
    have hX' : X < t.pitch := h.pitch_eq ▸ hX
    rw [h'.outside X hX' Y fun hB => hAB (.inr hB), h.outside X hX Y fun hA => hAB (.inl hA)]

theorem setPixel (hs : s.shape.Full) (hx : x ≤ s.w) (hy : y ≤ s.h) {p : UInt8} (hp : f x y (s.pixel? x y) = some p) :
    Repaints (row x y 1) f s (s.setPixel x y p) where
  shape := s.shape_setPixel x y p
  inside X hX Y hrow := by
    obtain ⟨rfl, rfl⟩ := row_one.mp hrow
    rw [pixel?_setPixel hs hx hy hX, if_pos ⟨rfl, rfl⟩, hp]
  outside X hX Y hrow := by
    rw [pixel?_setPixel hs hx hy hX, if_neg fun h => hrow (row_one.mpr h)]

theorem keepPixel (hkeep : f x y (s.pixel? x y) = s.pixel? x y) : Repaints (row x y 1) f s s := by
  refine .same fun X Y hrow => ?_
  obtain ⟨rfl, rfl⟩ := row_one.mp hrow
  exact hkeep

theorem row_zero : Repaints (row x y 0) f s s := by
  refine .same fun X Y hrow => ?_
  unfold row at hrow
  omega

theorem block_zero {w : Nat} : Repaints (block x y w 0) f s s := by
  refine .same fun X Y hblock => ?_
  unfold block at hblock
  omega

/-- A row is repainted pixel by pixel. -/
theorem row_succ (h : Repaints (row x y 1) f s t) (h' : Repaints (row (x + 1) y n) f t u) :
    Repaints (row x y (n + 1)) f s u := by
  refine (h.trans h' fun X Y => ?_).congr (fun X Y => ?_) fun _ _ _ => rfl
  · unfold row
    omega
  · unfold row
    omega

/-- A block is repainted row by row. -/
theorem block_succ {w : Nat} (h : Repaints (row x y w) f s t) (h' : Repaints (block x (y + 1) w n) f t u) :
    Repaints (block x y w (n + 1)) f s u := by
  refine (h.trans h' fun X Y => ?_).congr (fun X Y => ?_) fun _ _ _ => rfl
  · unfold row block
    omega
  · unfold row block
    omega

/-- What is repainted in the same way is the same. -/
theorem unique (hs : s.shape.Full) (h : Repaints A f s t) (h' : Repaints A f s u) : t = u := by
  refine eq_of_pixels (h'.shape ▸ hs) (h.shape.trans h'.shape.symm) fun X hX Y => ?_
  rw [h'.pitch_eq] at hX
  by_cases hA : A X Y
  · rw [h.inside X hX Y hA, h'.inside X hX Y hA]
  · rw [h.outside X hX Y hA, h'.outside X hX Y hA]

end Repaints

end Surface

end Adventure
