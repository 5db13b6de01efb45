import Adventure.Game.Render
import Adventure.Proofs.Bytes.Fields
import Adventure.Proofs.Within

/-! Drawing on a surface changes its colours one by one, and neither their number nor how they are laid out. -/

namespace Adventure

namespace Bytes

theorem size_resize (b : ByteArray) (n : Nat) : (resize b n).size = n := by
  unfold resize
  split
  · rename_i h
    rw [ByteArray.size_extract, Nat.min_eq_left h, Nat.sub_zero]
  · rename_i h
    rw [← length_list, list_pushN, List.length_append, List.length_replicate, length_list]
    omega

end Bytes

namespace Surface

/-- How the colours of a surface are laid out, and their number. -/
structure Shape where
  w : Nat
  h : Nat
  pitch : Nat
  size : Nat
  deriving DecidableEq

def shape (s : Surface) : Shape := ⟨s.w, s.h, s.pitch, s.bits.size⟩

/-- Each row has room for its columns, and there are as many colours as the rows take. -/
structure Shape.Full (s : Shape) : Prop where
  size : s.size = s.pitch * (s.h + 1)
  pitch : s.w + 1 ≤ s.pitch

theorem shape_setPixel (s : Surface) (x y : Nat) (color : UInt8) : (s.setPixel x y color).shape = s.shape := by
  simp only [shape, setPixel, Bytes.size_put]

theorem le_roundUp4 (n : Nat) : n ≤ roundUp4 n := by
  unfold roundUp4
  omega

/-- The numbers that describe a surface have sixteen bits. -/
theorem full_ofSize {width height : Nat} (hwidth : 0 < width ∧ width ≤ 65532) (hheight : 0 < height ∧ height ≤ 65536) :
    (ofSize width height).shape.Full := by
  have hle := le_roundUp4 width
  have hpitch : roundUp4 width % 0x10000 = roundUp4 width := by
    unfold roundUp4
    omega
  have hw : (width - 1) % 0x10000 + 1 = width := by omega
  have hh : (height - 1) % 0x10000 + 1 = height := by omega
  constructor
  · simp only [shape, ofSize, Bytes.size_replicate, hpitch, hh]
  · simp only [shape, ofSize, hpitch, hw]
    exact hle

theorem full_screen : screen.shape.Full := full_ofSize (by decide) (by decide)

end Surface

/-! ### Sprites -/

namespace Sprite

theorem shape_paintRow (color : Nat → UInt8) (y x i n : Nat) (s : Surface) :
    (paintRow color y x i n s).shape = s.shape := by
  induction n generalizing x i s with
  | zero => rfl
  | succ n ih =>
    rw [paintRow, ih]
    split
    · rfl
    · exact s.shape_setPixel x y _

theorem shape_paintRows (color : Nat → Nat → UInt8) (c : Window) (j n : Nat) (s : Surface) :
    (paintRows color c j n s).shape = s.shape := by
  induction n generalizing j s with
  | zero => rfl
  | succ n ih => rw [paintRows, ih, shape_paintRow]

theorem shape_draw (x y : Int) (b : ByteArray) (s : Surface) : (draw x y b s).shape = s.shape := by
  unfold draw
  dsimp only
  split
  · rfl
  · exact shape_paintRows _ _ _ _ s

theorem shape_drawMirrored (x y : Int) (b : ByteArray) (s : Surface) : (drawMirrored x y b s).shape = s.shape := by
  unfold drawMirrored
  dsimp only
  split
  · rfl
  · exact shape_paintRows _ _ _ _ s

end Sprite

theorem PlacedSprite.shape_drawAll (l : List PlacedSprite) (s : Surface) : (drawAll l s).shape = s.shape := by
  unfold drawAll
  induction l generalizing s with
  | nil => rfl
  | cons p l ih => exact (ih _).trans (Sprite.shape_draw _ _ _ s)

/-! ### Blocks -/

namespace Block

theorem size_copyRow (src : ByteArray) (i : Nat) (dst : ByteArray) (j n : Nat) :
    (copyRow src i dst j n).size = dst.size := by
  unfold copyRow
  split
  · rename_i h
    have hsrc : src.data.size = src.size := rfl
    have hdst : dst.data.size = dst.size := rfl
    change (src.copySlice i dst j n).data.size = _
    simp only [ByteArray.copySlice, Array.size_append, Array.size_extract]
    omega
  · rfl

theorem shape_copyRows (src : Surface) (c : Clipped) (row n : Nat) (dst : Surface) :
    (copyRows src c row n dst).shape = dst.shape := by
  induction n generalizing row dst with
  | zero => rfl
  | succ n ih =>
    rw [copyRows, ih]
    simp only [Surface.shape, size_copyRow]

theorem shape_copy (x y w h : Int) (src dst : Surface) : (copy x y w h src dst).shape = dst.shape := by
  unfold copy
  split
  · rfl
  · exact shape_copyRows _ _ _ _ dst

theorem shape_mixRow (keep : UInt8 → Bool) (src : Surface) (y x n : Nat) (dst : Surface) :
    (mixRow keep src y x n dst).shape = dst.shape := by
  induction n generalizing x dst with
  | zero => rfl
  | succ n ih =>
    rw [mixRow, ih]
    split
    · split
      · rfl
      · exact dst.shape_setPixel x y _
    · rfl

theorem shape_mixRows (keep : UInt8 → Bool) (src : Surface) (c : Clipped) (row n : Nat) (dst : Surface) :
    (mixRows keep src c row n dst).shape = dst.shape := by
  induction n generalizing row dst with
  | zero => rfl
  | succ n ih => rw [mixRows, ih, shape_mixRow]

theorem shape_mix (x y w h : Int) (src dst : Surface) (start stop : Int) :
    (mix x y w h src dst start stop).shape = dst.shape := by
  unfold mix
  split
  · rfl
  · exact shape_mixRows _ _ _ _ _ dst

end Block

/-! ### Backgrounds -/

namespace Background

/-- A picture that is read has all the colours that its rows take. -/
theorem full_ofImage {image : ByteArray} {offset : Nat} {b : Background} (h : ofImage image offset = .ok b) :
    b.surface.shape.Full := by
  unfold ofImage at h
  obtain ⟨width, -, h⟩ := except_bind_eq_ok.mp h
  obtain ⟨height, -, h⟩ := except_bind_eq_ok.mp h
  dsimp only at h
  split at h
  · cases h
  · rename_i hsmall
    cases h
    have hwidth : 0 < width.toNat := by
      rw [Nat.pos_iff_ne_zero]
      exact fun h0 => hsmall (Or.inl (UInt32.toNat_inj.mp h0))
    have hheight : 0 < height.toNat := by
      rw [Nat.pos_iff_ne_zero]
      exact fun h0 => hsmall (Or.inr (Or.inl (UInt32.toNat_inj.mp h0)))
    constructor
    · simp only [Surface.shape, Bytes.size_resize, Nat.sub_add_cancel hheight]
    · simp only [Surface.shape, Nat.sub_add_cancel hwidth]
      exact Surface.le_roundUp4 _

theorem full_decode {data : ByteArray} {b : Background} (h : decode data = .ok b) : b.surface.shape.Full := by
  obtain ⟨image, -, h⟩ := except_bind_eq_ok.mp h
  exact full_ofImage h

end Background

end Adventure
