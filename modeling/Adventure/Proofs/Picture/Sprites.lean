import Adventure.Proofs.Picture.Pixels
import Adventure.Proofs.Bytes.Words

/-! Drawing sprites: each pixel of a surface that a visible pixel of the sprite falls on takes its colour, and all
others stay. A mirrored sprite looks as the sprite whose rows are reversed. -/

namespace Adventure

theorem getElem?_flatten_of_length {α : Type} {l : List (List α)} {n i j : Nat} (hl : ∀ r ∈ l, r.length = n)
    (hj : j < n) : l.flatten[i * n + j]? = l[i]?.bind (·[j]?) := by
  induction l generalizing i with
  | nil => rfl
  | cons r l ih =>
    have hr : r.length = n := hl r List.mem_cons_self
    rw [List.flatten_cons]
    cases i with
    | zero =>
      rw [Nat.zero_mul, Nat.zero_add, List.getElem?_append_left (hr ▸ hj)]
      rfl
    | succ i =>
      rw [Nat.succ_mul, List.getElem?_append_right (by omega), hr, List.getElem?_cons_succ,
        ← ih fun r hr => hl r (List.mem_cons_of_mem _ hr)]
      congr 1
      omega

namespace Sprite

open Surface

variable {b : ByteArray} {dst : Surface} {x y : Int} {X Y : Nat}

/-- The pixel of a sprite at a column and a row. -/
def pixel? (b : ByteArray) (column row : Int) : Option UInt8 :=
  if 0 ≤ column ∧ column < width b ∧ 0 ≤ row ∧ row < height b then b[4 + (row.toNat * width b + column.toNat)]?
  else none

/-- A pixel of a sprite over what was there: colour zero is transparent. -/
def laidOver (p old : Option UInt8) : Option UInt8 :=
  match p with
  | some c => if c = 0 then old else some c
  | none => old

/-- The pixels of a row. -/
def rowOf (b : ByteArray) (row : Nat) : List UInt8 := ((Bytes.list b).drop (4 + row * width b)).take (width b)

/-- A sprite with each row reversed. -/
def mirror (b : ByteArray) : ByteArray :=
  Bytes.ofList ((Bytes.list b).take 4 ++ ((List.range (height b)).map fun row => (rowOf b row).reverse).flatten)

/-! ### Rows and windows -/

/-- Draws the pixels that a function gives in a window; both ways to draw a sprite are of this kind. -/
def drawWith (color : Nat → Nat → UInt8) (x y : Int) (w h : Nat) (dst : Surface) : Surface :=
  match clip? x y w h dst with
  | none => dst
  | some c => paintRows color c 0 c.h dst

theorem draw_eq (x y : Int) (b : ByteArray) (dst : Surface) :
    draw x y b dst = drawWith (color b (width b)) x y (width b) (height b) dst := rfl

theorem drawMirrored_eq (x y : Int) (b : ByteArray) (dst : Surface) :
    drawMirrored x y b dst =
      drawWith (fun row column => color b (width b) row (width b - 1 - column)) x y (width b) (height b) dst := rfl

theorem repaints_paintRow {color : Nat → UInt8} {x y i n : Nat} {change : Nat → Nat → Option UInt8 → Option UInt8}
    (hdst : dst.shape.Full) (hx : x + n ≤ dst.w + 1) (hy : y ≤ dst.h)
    (hchange : ∀ k < n, change (x + k) y = laidOver (some (color (i + k)))) :
    Repaints (row x y n) change dst (paintRow color y x i n dst) := by
  induction n generalizing x i dst with
  | zero => exact .row_zero
  | succ n ih =>
    have hfirst : change x y = laidOver (some (color i)) := hchange 0 (Nat.succ_pos n)
    have hrest : ∀ k < n, change (x + 1 + k) y = laidOver (some (color (i + 1 + k))) := fun k hk => by
      have hk' := hchange (k + 1) (Nat.succ_lt_succ hk)
      rwa [Nat.add_comm k, ← Nat.add_assoc, ← Nat.add_assoc] at hk'
    rw [paintRow]
    split
    · rename_i hzero
      have hsame : Repaints (row x y 1) change dst dst := .keepPixel (by rw [hfirst, laidOver, if_pos hzero])
      exact hsame.row_succ (ih hdst (by omega) hy hrest)
    · rename_i hvisible
      have hset := Repaints.setPixel (f := change) hdst (x := x) (y := y) (p := color i) (by omega) hy
        (by rw [hfirst, laidOver, if_neg hvisible])
      exact hset.row_succ (ih (hset.full hdst) (by rw [hset.w_eq]; omega) (by rw [hset.h_eq]; exact hy) hrest)

theorem repaints_paintRows {color : Nat → Nat → UInt8} {c : Window} {j n : Nat}
    {change : Nat → Nat → Option UInt8 → Option UInt8} (hdst : dst.shape.Full) (hx : c.x + c.w ≤ dst.w + 1)
    (hy : c.y + j + n ≤ dst.h + 1)
    (hchange : ∀ k < c.w, ∀ m < j + n,
      change (c.x + k) (c.y + m) = laidOver (some (color (c.skipY + m) (c.skipX + k)))) :
    Repaints (block c.x (c.y + j) c.w n) change dst (paintRows color c j n dst) := by
  induction n generalizing j dst with
  | zero => exact .block_zero
  | succ n ih =>
    have hrow := repaints_paintRow hdst hx (y := c.y + j) (by omega) fun k hk => hchange k hk j (by omega)
    exact hrow.block_succ (ih (j := j + 1) (hrow.full hdst) (by rw [hrow.w_eq]; exact hx) (by rw [hrow.h_eq]; omega)
      fun k hk m hm => hchange k hk m (by omega))

variable {w h : Nat}

/-- The pixels of a surface that a sprite covers. -/
def covered (x y : Int) (w h : Nat) (dst : Surface) (X Y : Nat) : Prop :=
  x ≤ X ∧ X < x + w ∧ y ≤ Y ∧ Y < y + h ∧ X ≤ dst.w ∧ Y ≤ dst.h

theorem clip?_none (hc : clip? x y w h dst = none) (X Y : Nat) : ¬ covered x y w h dst X Y := by
  unfold clip? at hc
  unfold covered
  split at hc
  · omega
  · cases hc

theorem clip?_some {c : Window} (hc : clip? x y w h dst = some c) :
    c.x + c.w ≤ dst.w + 1 ∧ c.y + c.h ≤ dst.h + 1 ∧ (c.skipX : Int) = c.x - x ∧ (c.skipY : Int) = c.y - y ∧
      ∀ X Y, block c.x c.y c.w c.h X Y ↔ covered x y w h dst X Y := by
  unfold clip? at hc
  split at hc
  · cases hc
  · obtain rfl := Option.some.inj hc
    dsimp only
    refine ⟨by omega, by omega, by omega, by omega, fun X Y => ?_⟩
    unfold block covered
    omega

/-- The pixel that a function gives at a column and a row of a sprite. -/
def pixelOf (color : Nat → Nat → UInt8) (w h : Nat) (column row : Int) : Option UInt8 :=
  if 0 ≤ column ∧ column < w ∧ 0 ≤ row ∧ row < h then some (color row.toNat column.toNat) else none

theorem repaints_drawWith (color : Nat → Nat → UInt8) (hdst : dst.shape.Full) :
    Repaints (fun X Y => X ≤ dst.w ∧ Y ≤ dst.h) (fun X Y => laidOver (pixelOf color w h (X - x) (Y - y))) dst
      (drawWith color x y w h dst) := by
  have hcovered : Repaints (covered x y w h dst) (fun X Y => laidOver (pixelOf color w h (X - x) (Y - y))) dst
      (drawWith color x y w h dst) := by
    unfold drawWith
    cases hc : clip? x y w h dst with
    | none => exact .same fun X Y hA => absurd hA (clip?_none hc X Y)
    | some c =>
      obtain ⟨hx, hy, hskipX, hskipY, harea⟩ := clip?_some hc
      refine (repaints_paintRows hdst hx hy fun k hk m hm => ?_).congr harea fun _ _ _ => rfl
      have hin := (harea (c.x + k) (c.y + m)).mp (by unfold block; omega)
      unfold covered at hin
      rw [pixelOf, if_pos (by omega)]
      congr 3 <;> omega
  refine hcovered.extend (fun X Y hA => hA.2.2.2.2) fun X Y hB hA => ?_
  have hout : ¬ (0 ≤ (X : Int) - x ∧ (X : Int) - x < w ∧ 0 ≤ (Y : Int) - y ∧ (Y : Int) - y < h) := by
    unfold covered at hA
    omega
  rw [pixelOf, if_neg hout]
  rfl

/-! ### Whole sprites -/

theorem laidOver_at0 (b : ByteArray) (i : Nat) : laidOver (some (Bytes.at0 b i)) = laidOver b[i]? := by
  rw [Bytes.at0_eq, Bytes.getElem?_list]
  cases b[i]? with
  | none => rfl
  | some c => rfl

/-- A pixel that is missing from a sprite is as good as a transparent one. -/
theorem laidOver_pixelOf (b : ByteArray) (column row : Int) :
    laidOver (pixelOf (color b (width b)) (width b) (height b) column row) = laidOver (pixel? b column row) := by
  unfold pixelOf pixel?
  split
  · exact laidOver_at0 b _
  · rfl

theorem repaints_draw (hdst : dst.shape.Full) (x y : Int) (b : ByteArray) :
    Repaints (fun X Y => X ≤ dst.w ∧ Y ≤ dst.h) (fun X Y => laidOver (pixel? b (X - x) (Y - y))) dst
      (draw x y b dst) := by
  rw [draw_eq]
  exact (repaints_drawWith (color b (width b)) hdst).congr (fun _ _ => Iff.rfl) fun _ _ _ => laidOver_pixelOf b _ _

/-! ### Reversed rows -/

section

variable (hb : size b ≤ b.size)
include hb

theorem list_mirror_head {i : Nat} (hi : i < 4) : (Bytes.list (mirror b))[i]? = (Bytes.list b)[i]? := by
  have hsize : 4 ≤ (Bytes.list b).length := Nat.le_trans (Nat.le_add_right 4 _) hb
  rw [mirror, Bytes.list_ofList, List.getElem?_append_left (by rw [List.length_take_of_le hsize]; exact hi),
    List.getElem?_take_of_lt hi]

theorem width_mirror : width (mirror b) = width b := by
  have hlow := list_mirror_head hb (i := 0) (by decide)
  have hhigh := list_mirror_head hb (i := 0 + 1) (by decide)
  simp only [width, Bytes.le16?_eq, hlow, hhigh]

theorem height_mirror : height (mirror b) = height b := by
  have hlow := list_mirror_head hb (i := 2) (by decide)
  have hhigh := list_mirror_head hb (i := 2 + 1) (by decide)
  simp only [height, Bytes.le16?_eq, hlow, hhigh]

theorem length_rowOf {row : Nat} (hrow : row < height b) : (rowOf b row).length = width b := by
  have hrows : (row + 1) * width b ≤ height b * width b := Nat.mul_le_mul_right _ hrow
  have hsize : 4 + width b * height b ≤ (Bytes.list b).length := hb
  rw [Nat.mul_comm (width b)] at hsize
  rw [Nat.succ_mul] at hrows
  exact List.length_take_of_le (by rw [List.length_drop]; omega)

theorem getElem?_mirror {row column : Nat} (hrow : row < height b) (hcolumn : column < width b) :
    (mirror b)[4 + (row * width b + column)]? = b[4 + (row * width b + (width b - 1 - column))]? := by
  have hhead : ((Bytes.list b).take 4).length = 4 := List.length_take_of_le (Nat.le_trans (Nat.le_add_right 4 _) hb)
  have hlength : ∀ r ∈ (List.range (height b)).map fun row => (rowOf b row).reverse, r.length = width b := by
    simp only [List.mem_map, List.mem_range]
    rintro r ⟨j, hj, rfl⟩
    rw [List.length_reverse, length_rowOf hb hj]
  have hreversed : (rowOf b row).reverse[column]? = (rowOf b row)[width b - 1 - column]? := by
    rw [List.getElem?_reverse (by rw [length_rowOf hb hrow]; exact hcolumn), length_rowOf hb hrow]
  rw [← Bytes.getElem?_list, ← Bytes.getElem?_list, mirror, Bytes.list_ofList,
    List.getElem?_append_right (by rw [hhead]; exact Nat.le_add_right 4 _), hhead, Nat.add_sub_cancel_left,
    getElem?_flatten_of_length hlength hcolumn, List.getElem?_map, List.getElem?_range hrow, Option.map_some,
    Option.bind_some, hreversed, rowOf, List.getElem?_take_of_lt (by omega), List.getElem?_drop, Nat.add_assoc]

theorem pixel?_mirror (column row : Int) : pixel? (mirror b) column row = pixel? b (width b - 1 - column) row := by
  unfold pixel?
  rw [width_mirror hb, height_mirror hb]
  by_cases hin : 0 ≤ column ∧ column < width b ∧ 0 ≤ row ∧ row < height b
  · rw [if_pos hin, if_pos (by omega), getElem?_mirror hb (by omega) (by omega)]
    congr 3
    omega
  · rw [if_neg hin, if_neg (by omega)]

theorem drawMirrored_eq_draw (hdst : dst.shape.Full) (x y : Int) :
    drawMirrored x y b dst = draw x y (mirror b) dst := by
  rw [drawMirrored_eq]
  refine Repaints.unique hdst ((repaints_drawWith _ hdst).congr (fun _ _ => Iff.rfl) fun X Y _ => ?_)
    (repaints_draw hdst x y (mirror b))
  rw [pixel?_mirror hb]
  unfold pixelOf pixel?
  by_cases hin : 0 ≤ (X : Int) - x ∧ (X : Int) - x < width b ∧ 0 ≤ (Y : Int) - y ∧ (Y : Int) - y < height b
  · rw [if_pos hin, if_pos (by omega)]
    refine (laidOver_at0 b _).trans ?_
    congr 4
    omega
  · rw [if_neg hin, if_neg (by omega)]

end

/-- Where a sprite is drawn, its visible pixels cover those of the surface, on whatever sides it hangs over; all other
pixels stay, and so does the padding. Drawn mirrored, it looks as the sprite with each row reversed. -/
theorem draws_pixels (hdst : dst.shape.Full) (hb : size b ≤ b.size) (x y : Int) :
    Repaints (fun X Y => X ≤ dst.w ∧ Y ≤ dst.h) (fun X Y => laidOver (pixel? b (X - x) (Y - y))) dst (draw x y b dst) ∧
      drawMirrored x y b dst = draw x y (mirror b) dst ∧
      ∀ column row, pixel? (mirror b) column row = pixel? b (width b - 1 - column) row :=
  ⟨repaints_draw hdst x y b, drawMirrored_eq_draw hb hdst x y, pixel?_mirror hb⟩

/-- Two rows of three pixels. -/
def flag : ByteArray := make 3 2 (Bytes.ofList [1, 2, 3, 0, 5, 6])

/-- A sprite that hangs over the left side. -/
theorem draws_pixels_flag : (ofSize 4 4).shape.Full ∧ size flag ≤ flag.size ∧
    (draw (-1) 0 flag (ofSize 4 4)).pixel? 0 0 = some 2 ∧ (drawMirrored (-1) 2 flag (ofSize 4 4)).pixel? 1 3 = some 0 ∧
    (drawMirrored (-1) 2 flag (ofSize 4 4)).pixel? 1 2 = some 1 := by
  have hdst : (ofSize 4 4).shape.Full := full_ofSize (by decide) (by decide)
  have hb : size flag ≤ flag.size := by decide
  obtain ⟨hdraw, -, -⟩ := draws_pixels hdst hb (-1) 0
  obtain ⟨-, hreversed, hpixels⟩ := draws_pixels hdst hb (-1) 2
  have hb' : size (mirror flag) ≤ (mirror flag).size := by decide +kernel
  obtain ⟨hmirrored, -, -⟩ := draws_pixels hdst hb' (-1) 2
  refine ⟨hdst, hb, ?_, ?_, ?_⟩
  · rw [hdraw.inside 0 (by decide) 0 ⟨by decide, by decide⟩]
    decide +kernel
  · rw [hreversed, hmirrored.inside 1 (by decide) 3 ⟨by decide, by decide⟩, hpixels]
    decide +kernel
  · rw [hreversed, hmirrored.inside 1 (by decide) 2 ⟨by decide, by decide⟩, hpixels]
    decide +kernel

end Sprite

end Adventure
