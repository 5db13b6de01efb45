import Adventure.Stage.Screen
import Adventure.Proofs.Bytes.Fields

/-! Copying a buffer to the screen. The buffer is stored from the bottom row up and the screen from the top row down, so
that the picture stands upright; what hangs over the screen is left out, and so is what the buffer does not hold. -/

namespace Adventure.Stage

variable {screen : ByteArray} {i j n : Nat}

/-! ### Pixels of the screen -/

theorem size_setPixel (screen : ByteArray) (i : Nat) (c : Rgb) : (setPixel screen i c).size = screen.size := by
  simp only [setPixel, Bytes.size_put]

theorem getPixel_setPixel (hi : 3 * i + 3 ≤ screen.size) (c : Rgb) :
    getPixel (setPixel screen i c) j = if j = i then c else getPixel screen j := by
  simp only [getPixel, setPixel, Bytes.at0_put, Bytes.size_put]
  by_cases h : j = i
  · subst h
    rw [if_pos rfl, if_neg (by omega), if_neg (by omega), if_pos (by omega), if_neg (by omega), if_pos (by omega),
      if_pos (by omega)]
  · rw [if_neg h]
    simp (disch := omega) only [if_neg]

/-- What a pixel becomes when the colour at a place of a buffer is copied over it: its own colour stays where the buffer
has ended, or where colour zero is left out. -/
def copied (palette buffer : ByteArray) (transparent : Bool) (place : Nat) (old : Rgb) : Rgb :=
  match buffer[place]? with
  | some c => if transparent ∧ c = 0 then old else color palette c
  | none => old

variable {palette buffer : ByteArray} {transparent : Bool}

theorem copied_some {place : Nat} {c : UInt8} (h : buffer[place]? = some c) (old : Rgb) :
    copied palette buffer transparent place old = if transparent ∧ c = 0 then old else color palette c := by
  rw [copied, h]

theorem copied_none {place : Nat} (h : buffer[place]? = none) (old : Rgb) :
    copied palette buffer transparent place old = old := by
  rw [copied, h]

theorem exists_pixel (s : Stage) {X Y : Nat} (hX : X < screenWidth) (hY : Y < screenHeight) :
    ∃ c, s.pixel? X Y = some c := ⟨_, if_pos ⟨hX, hY⟩⟩

/-! ### Rows -/

theorem size_copied (c : Bool) (screen : ByteArray) (i : Nat) (rgb : Rgb) :
    (if c then screen else setPixel screen i rgb).size = screen.size := by
  rw [apply_ite ByteArray.size, size_setPixel, ite_self]

theorem size_copyRow (src i n : Nat) (screen : ByteArray) :
    (copyRow palette buffer transparent src i n screen).size = screen.size := by
  induction n generalizing src i screen with
  | zero => rfl
  | succ n ih =>
    rw [copyRow]
    split
    · exact (ih _ _ _).trans (size_copied _ _ _ _)
    · rfl

/-- One pixel is copied. -/
theorem getPixel_copied {src : Nat} (hsrc : src < buffer.size) (hi : 3 * i + 3 ≤ screen.size) :
    getPixel (if transparent && buffer[src] == 0 then screen else setPixel screen i (color palette buffer[src])) j =
      if j = i then copied palette buffer transparent src (getPixel screen j) else getPixel screen j := by
  simp only [copied_some (getElem?_pos buffer src hsrc), Bool.and_eq_true, beq_iff_eq]
  by_cases hclear : transparent ∧ buffer[src] = 0
  · rw [if_pos hclear, if_pos hclear, ite_self]
  · rw [if_neg hclear, if_neg hclear, getPixel_setPixel hi]

theorem getPixel_copyRow (src : Nat) (hroom : 3 * (i + n) ≤ screen.size) :
    getPixel (copyRow palette buffer transparent src i n screen) j =
      if i ≤ j ∧ j < i + n then copied palette buffer transparent (src + (j - i)) (getPixel screen j)
      else getPixel screen j := by
  induction n generalizing src i screen with
  | zero => rw [copyRow, if_neg (by omega)]
  | succ n ih =>
    rw [copyRow]
    split
    · rename_i hsrc
      dsimp only
      rw [ih (src + 1) (by rw [size_copied]; omega), getPixel_copied hsrc (by omega)]
      by_cases hj : j = i
      · subst hj
        rw [if_neg (by omega), if_pos rfl, if_pos (by omega), Nat.sub_self, Nat.add_zero]
      · rw [if_neg hj]
        by_cases hin : i + 1 ≤ j ∧ j < i + 1 + n
        · rw [if_pos hin, if_pos (by omega)]
          congr 1
          omega
        · rw [if_neg hin, if_neg (by omega)]
    · -- behind the end of the buffer there is nothing for the other pixels either
      rw [copied_none (getElem?_neg _ _ (by omega)), ite_self]

theorem size_copyRows (pitch column x w last y n : Nat) (screen : ByteArray) :
    (copyRows palette buffer transparent pitch column x w last y n screen).size = screen.size := by
  induction n generalizing last y screen with
  | zero => rfl
  | succ n ih => rw [copyRows, ih, size_copyRow]

/-- The rows of the screen go down while those of the buffer go up. -/
theorem getPixel_copyRows {pitch column x w last y X Y : Nat} (hrows : n ≤ last + 1) (hx : x + w ≤ screenWidth)
    (hroom : 3 * (screenWidth * (y + n)) ≤ screen.size) (hX : X < screenWidth) :
    getPixel (copyRows palette buffer transparent pitch column x w last y n screen) (Y * screenWidth + X) =
      if x ≤ X ∧ X < x + w ∧ y ≤ Y ∧ Y < y + n then
        copied palette buffer transparent ((last - (Y - y)) * pitch + (column + (X - x)))
          (getPixel screen (Y * screenWidth + X))
      else getPixel screen (Y * screenWidth + X) := by
  have hwidth : screenWidth = 640 := rfl
  rw [hwidth] at hx hroom hX ⊢
  induction n generalizing last y screen with
  | zero => rw [copyRows, if_neg (by omega)]
  | succ n ih =>
    rw [copyRows, ih (by omega) (by rw [size_copyRow]; omega), hwidth, getPixel_copyRow _ (by omega)]
    by_cases hY : Y = y
    · subst hY
      rw [if_neg (by omega)]
      by_cases hin : x ≤ X ∧ X < x + w
      · rw [if_pos (by omega), if_pos (by omega), Nat.sub_self, Nat.sub_zero, Nat.add_assoc]
        congr 3
        omega
      · rw [if_neg (by omega), if_neg (by omega)]
    · have hother : ¬ (y * 640 + x ≤ Y * 640 + X ∧ Y * 640 + X < y * 640 + x + w) := by omega
      rw [if_neg hother]
      by_cases hin : x ≤ X ∧ X < x + w ∧ y + 1 ≤ Y ∧ Y < y + 1 + n
      · have hrow : last - 1 - (Y - (y + 1)) = last - (Y - y) := by omega
        rw [if_pos hin, if_pos (by omega), hrow]
      · rw [if_neg hin, if_neg (by omega)]

/-! ### The whole rectangle -/

theorem clip?_eq (x y w h : Int) : clip? x y w h =
    if min (x + w) screenWidth ≤ max x 0 ∨ min (y + h) screenHeight ≤ max y 0 then none
    else some ⟨max x 0, max y 0, min (x + w) screenWidth - max x 0, min (y + h) screenHeight - max y 0⟩ := by
  simp only [clip?, Rect.clipTo, Int.zero_add]
  by_cases hempty : min (x + w) screenWidth ≤ max x 0 ∨ min (y + h) screenHeight ≤ max y 0
  · rw [if_pos hempty, if_pos hempty]
  · rw [if_neg hempty, if_neg hempty]

/-- The pixels of a rectangle. -/
def Covered (x y w h : Int) (X Y : Nat) : Prop := x ≤ X ∧ X < x + w ∧ y ≤ Y ∧ Y < y + h

instance (x y w h : Int) (X Y : Nat) : Decidable (Covered x y w h X Y) := inferInstanceAs (Decidable (_ ∧ _))

variable {s : Stage} {x y w h : Int} {X Y : Nat}

theorem size_copyRect (s : Stage) (x y w h : Int) (buffer : ByteArray) (pitch : Nat) (transparent : Bool) :
    (s.copyRect x y w h buffer pitch transparent).screen.size = s.screen.size := by
  unfold copyRect
  split
  · rfl
  · exact size_copyRows ..

theorem getPixel_copyRect (hs : s.screen.size = 3 * (screenWidth * screenHeight)) (pitch : Nat) (hX : X < screenWidth)
    (hY : Y < screenHeight) :
    getPixel (s.copyRect x y w h buffer pitch transparent).screen (Y * screenWidth + X) =
      if Covered x y w h X Y then
        copied s.palette buffer transparent ((h - 1 - (Y - y)).toNat * pitch + (X - x).toNat)
          (getPixel s.screen (Y * screenWidth + X))
      else getPixel s.screen (Y * screenWidth + X) := by
  have hwidth : screenWidth = 640 := rfl
  have hheight : screenHeight = 480 := rfl
  rw [hwidth, hheight] at hs
  rw [copyRect, clip?_eq]
  by_cases hempty : min (x + w) screenWidth ≤ max x 0 ∨ min (y + h) screenHeight ≤ max y 0
  · have hout : ¬ Covered x y w h X Y := by
      unfold Covered
      omega
    rw [if_pos hempty, if_neg hout]
  · rw [if_neg hempty]
    dsimp only
    rw [getPixel_copyRows (by omega) (by omega) (by rw [hs, hwidth]; omega) hX]
    by_cases hin : Covered x y w h X Y
    · rw [if_pos hin]
      unfold Covered at hin
      rw [if_pos (by omega)]
      congr 2
      · congr 1
        omega
      · omega
    · rw [if_neg hin]
      unfold Covered at hin
      rw [if_neg (by omega)]

/-- A stage whose colours are shades of grey. -/
def greyStage : Stage :=
  { ofRate 22050 with palette := ⟨⟨(List.range 256).flatMap fun i => List.replicate 3 i.toUInt8⟩⟩ }

end Adventure.Stage
