import Adventure.Proofs.Video.CinepakCode
import Adventure.Proofs.Within
import Mathlib.Data.List.Induction

/-! Painting blocks. A block is painted half a row at a time, in an order that depends on its kind; what it looks
like does not. Blocks that are painted one after the other fill the rows below the one they start in. -/

namespace Adventure.Cinepak

open Bytes (at0)

/-! ### Four bytes -/

/-- A frame with four bytes from `i` on, if there is room for them. -/
def quad (frame : ByteArray) (i : Nat) (a b c d : UInt8) : ByteArray :=
  if i + 4 ≤ frame.size then Bytes.put (Bytes.put (Bytes.put (Bytes.put frame i a) (i + 1) b) (i + 2) c) (i + 3) d
  else frame

@[simp] theorem size_quad (frame : ByteArray) (i : Nat) (a b c d : UInt8) : (quad frame i a b c d).size = frame.size := by
  unfold quad
  split
  · simp only [Bytes.size_put]
  · rfl

theorem at0_quad {frame : ByteArray} {i : Nat} (hi : i + 4 ≤ frame.size) (f : Nat → UInt8) (k : Nat) :
    at0 (quad frame i (f 0) (f 1) (f 2) (f 3)) k = if i ≤ k ∧ k < i + 4 then f (k - i) else at0 frame k := by
  rw [quad, if_pos hi]
  simp only [Bytes.at0_put, Bytes.size_put]
  by_cases hk : i ≤ k ∧ k < i + 4
  · obtain rfl | rfl | rfl | rfl : k = i ∨ k = i + 1 ∨ k = i + 2 ∨ k = i + 3 := by omega
    all_goals simp; omega
  · rw [if_neg hk, if_neg (by omega), if_neg (by omega), if_neg (by omega), if_neg (by omega)]

theorem put_eq (row column : Nat) (a b c d : UInt8) (s : State) :
    put row column a b c d s =
      .ok () { s with frame := quad s.frame ((s.y + row) * pitch + 2 * (s.x + column)) a b c d } := by
  unfold quad
  split
  · rename_i h
    exact congrArg (EStateM.Result.ok ()) (if_pos h)
  · rename_i h
    exact congrArg (EStateM.Result.ok ()) (if_neg h)

/-! ### A block -/

/-- The rows and halves of a block in the order in which they are painted. -/
def Block.places : Block → List (Nat × Nat)
  | one _ => [(0, 0), (0, 1), (1, 0), (1, 1), (2, 0), (2, 1), (3, 0), (3, 1)]
  | four .. => [(0, 0), (1, 0), (0, 1), (1, 1), (2, 0), (3, 0), (2, 1), (3, 1)]

theorem Block.mem_places (b : Block) (i j : Nat) : (i, j) ∈ b.places ↔ i < 4 ∧ j < 2 := by
  cases b <;> simp only [places, List.mem_cons, Prod.mk.injEq, List.not_mem_nil, or_false] <;> omega

/-- Half a row of a block, painted at the place of the next block. -/
def Block.half (b : Block) (s : State) (frame : ByteArray) (p : Nat × Nat) : ByteArray :=
  quad frame ((s.y + p.1) * pitch + 2 * (s.x + 2 * p.2)) (b.byte p.1 (4 * p.2)) (b.byte p.1 (4 * p.2 + 1))
    (b.byte p.1 (4 * p.2 + 2)) (b.byte p.1 (4 * p.2 + 3))

def State.paint (s : State) (b : Block) : State := { s with frame := b.places.foldl (b.half s) s.frame }

theorem paintQuarter_eq (row column : Nat) (q : PixelVector) (s : State) :
    paintQuarter row column q s = .ok () { s with
      frame := quad (quad s.frame ((s.y + row) * pitch + 2 * (s.x + column)) q.u q.y₀ q.v q.y₁)
        ((s.y + (row + 1)) * pitch + 2 * (s.x + column)) q.u q.y₂ q.v q.y₃ } := by
  rw [paintQuarter, bind_of_ok (put_eq ..), put_eq]

theorem paintV1_eq (v : PixelVector) (s : State) : paintV1 v s = .ok () (s.paint (.one v)) := by
  rw [paintV1, bind_of_ok (put_eq ..), bind_of_ok (put_eq ..), bind_of_ok (put_eq ..), bind_of_ok (put_eq ..),
    bind_of_ok (put_eq ..), bind_of_ok (put_eq ..), bind_of_ok (put_eq ..), put_eq]
  simp [State.paint, Block.places, Block.half, Block.byte, Block.brightness, Block.quarter, PixelVector.brightness]

theorem paintV4_eq (a b c d : PixelVector) (s : State) : paintV4 a b c d s = .ok () (s.paint (.four a b c d)) := by
  rw [paintV4, bind_of_ok (paintQuarter_eq ..), bind_of_ok (paintQuarter_eq ..), bind_of_ok (paintQuarter_eq ..),
    paintQuarter_eq]
  simp [State.paint, Block.places, Block.half, Block.byte, Block.brightness, Block.quarter, PixelVector.brightness]

/-- Byte `k` of a row lies in one of some halves of rows of the block that starts in `s`. -/
def State.Covers (s : State) (row k : Nat) (places : List (Nat × Nat)) : Prop :=
  s.y ≤ row ∧ 2 * s.x ≤ k ∧ (row - s.y, (k - 2 * s.x) / 4) ∈ places

instance (s : State) (row k : Nat) (places : List (Nat × Nat)) : Decidable (s.Covers row k places) :=
  inferInstanceAs (Decidable (s.y ≤ row ∧ 2 * s.x ≤ k ∧ (row - s.y, (k - 2 * s.x) / 4) ∈ places))

section

variable {s : State} {frame : ByteArray} {row k : Nat} (hframe : frame.size = frameBytes) (hx : s.x + 4 ≤ Avi.frameWidth)
  (hrow : row < Avi.frameHeight) (hk : k < pitch)
include hframe hx hrow hk

theorem pixels_half (b : Block) {p : Nat × Nat} (hp : p.2 < 2) :
    pixels (b.half s frame p) row k =
      if s.Covers row k [p] then b.byte (row - s.y) (k - 2 * s.x) else pixels frame row k := by
  obtain ⟨i, j⟩ := p
  have hcovers : s.Covers row k [(i, j)] ↔ s.y + i = row ∧ 2 * s.x + 4 * j ≤ k ∧ k < 2 * s.x + 4 * j + 4 := by
    simp only [State.Covers, List.mem_singleton, Prod.mk.injEq]
    omega
  simp only [hcovers]
  simp only [frameBytes, pitch, Avi.frameWidth, Avi.frameHeight] at hframe hx hrow hk hp
  have hpitch : pitch = 640 := rfl
  by_cases hroom : (s.y + i) * pitch + 2 * (s.x + 2 * j) + 4 ≤ frame.size
  · refine (at0_quad hroom (fun n => b.byte i (4 * j + n)) (row * pitch + k)).trans ?_
    rw [hpitch] at hroom ⊢
    by_cases hin : s.y + i = row ∧ 2 * s.x + 4 * j ≤ k ∧ k < 2 * s.x + 4 * j + 4
    · rw [if_pos hin, if_pos (by omega)]
      congr 1 <;> omega
    · rw [if_neg hin, if_neg (by omega)]
      rfl
  · rw [Block.half, quad, if_neg hroom]
    rw [hpitch] at hroom
    rw [if_neg (by omega)]

theorem pixels_halves (b : Block) (places : List (Nat × Nat)) (hplaces : ∀ p ∈ places, p.2 < 2) :
    pixels (places.foldl (b.half s) frame) row k =
      if s.Covers row k places then b.byte (row - s.y) (k - 2 * s.x) else pixels frame row k := by
  induction places generalizing frame with
  | nil => exact (if_neg fun h => List.not_mem_nil h.2.2).symm
  | cons p places ih =>
    have hsize : (b.half s frame p).size = frameBytes := (size_quad ..).trans hframe
    rw [List.foldl_cons, ih hsize fun q hq => hplaces q (List.mem_cons_of_mem p hq),
      pixels_half hframe hx hrow hk b (hplaces p List.mem_cons_self)]
    have hcons : s.Covers row k (p :: places) ↔ s.Covers row k [p] ∨ s.Covers row k places := by
      simp only [State.Covers, List.mem_cons, List.not_mem_nil, or_false, and_or_left]
    by_cases hin : s.Covers row k places
    · rw [if_pos hin, if_pos (hcons.mpr (Or.inr hin))]
    · simp only [if_neg hin, hcons, or_iff_left hin]

theorem pixels_paint (b : Block) (hs : s.frame = frame) :
    pixels (s.paint b).frame row k =
      if s.y ≤ row ∧ row < s.y + 4 ∧ 2 * s.x ≤ k ∧ k < 2 * s.x + 8 then b.byte (row - s.y) (k - 2 * s.x)
      else pixels frame row k := by
  have hcovers : s.Covers row k b.places ↔ s.y ≤ row ∧ row < s.y + 4 ∧ 2 * s.x ≤ k ∧ k < 2 * s.x + 8 := by
    rw [State.Covers, b.mem_places]
    omega
  have hplaces (p : Nat × Nat) (hp : p ∈ b.places) : p.2 < 2 := ((b.mem_places p.1 p.2).mp hp).2
  simp only [State.paint, hs, pixels_halves hframe hx hrow hk b b.places hplaces, hcovers]

end

/-! ### Blocks in a row -/

def State.next (s : State) : State :=
  if Avi.frameWidth ≤ s.x + 4 then { s with x := 0, y := s.y + 4 } else { s with x := s.x + 4 }

/-- Where a block was painted, or kept, the next one is to be painted. -/
def State.step (s : State) : Option Block → State
  | some b => (s.paint b).next
  | none => s.next

/-- The next block is block `n` of a strip that starts in row `top`. -/
structure State.At (s : State) (top n : Nat) : Prop where
  x : s.x = 4 * (n % rowBlocks)
  y : s.y = top + 4 * (n / rowBlocks)

namespace State

variable {s : State} {top n : Nat}

theorem books_next (s : State) : s.next.books = s.books := by
  unfold next
  split <;> rfl

theorem frame_next (s : State) : s.next.frame = s.frame := by
  unfold next
  split <;> rfl

theorem books_step (s : State) (b : Option Block) : (s.step b).books = s.books := by
  cases b with
  | none => exact books_next s
  | some b => exact books_next (s.paint b)

theorem books_steps (blocks : List (Option Block)) (s : State) : (blocks.foldl State.step s).books = s.books := by
  induction blocks generalizing s with
  | nil => rfl
  | cons b blocks ih => rw [List.foldl_cons, ih, books_step]

theorem At.next (h : s.At top n) : s.next.At top (n + 1) := by
  obtain ⟨hx, hy⟩ := h
  rw [rowBlocks] at hx hy
  unfold State.next
  split
  · rename_i hend
    rw [Avi.frameWidth] at hend
    exact ⟨by simp only [rowBlocks]; omega, by simp only [rowBlocks]; omega⟩
  · rename_i hend
    rw [Avi.frameWidth] at hend
    exact ⟨by simp only [rowBlocks]; omega, by simp only [rowBlocks]; omega⟩

theorem At.step (h : s.At top n) (b : Option Block) : (s.step b).At top (n + 1) := by
  cases b with
  | none => exact h.next
  | some b => exact At.next (s := s.paint b) ⟨h.x, h.y⟩

theorem size_step (hframe : s.frame.size = frameBytes) (b : Option Block) : (s.step b).frame.size = frameBytes := by
  cases b with
  | none => rw [State.step, frame_next, hframe]
  | some b =>
    have hfold (places : List (Nat × Nat)) (frame : ByteArray) : (places.foldl (b.half s) frame).size = frame.size := by
      induction places generalizing frame with
      | nil => rfl
      | cons p places ih => rw [List.foldl_cons, ih, Block.half, size_quad]
    rw [State.step, frame_next, State.paint, hfold, hframe]

/-- A step paints where the next block lies. -/
theorem At.pixels_step (h : s.At top n) (hframe : s.frame.size = frameBytes) (b : Option Block) {row k : Nat}
    (hrow : row < Avi.frameHeight) (hk : k < pitch) :
    pixels (s.step b).frame row k =
      if top ≤ row ∧ rowBlocks * ((row - top) / 4) + k / 8 = n then
        (b.map fun b => b.byte ((row - top) % 4) (k % 8)).getD (pixels s.frame row k)
      else pixels s.frame row k := by
  obtain ⟨hx, hy⟩ := h
  cases b with
  | none =>
    rw [State.step, frame_next]
    split <;> rfl
  | some b =>
    simp only [rowBlocks] at hx hy
    have hcolumn : s.x + 4 ≤ Avi.frameWidth := by rw [Avi.frameWidth]; omega
    have hplace : (s.y ≤ row ∧ row < s.y + 4 ∧ 2 * s.x ≤ k ∧ k < 2 * s.x + 8) ↔
        top ≤ row ∧ rowBlocks * ((row - top) / 4) + k / 8 = n := by
      simp only [pitch, Avi.frameWidth] at hk
      simp only [rowBlocks]
      omega
    rw [State.step, frame_next, pixels_paint hframe hcolumn hrow hk b rfl]
    by_cases hin : s.y ≤ row ∧ row < s.y + 4 ∧ 2 * s.x ≤ k ∧ k < 2 * s.x + 8
    · have hline : row - s.y = (row - top) % 4 := by omega
      have hbyte : k - 2 * s.x = k % 8 := by omega
      rw [if_pos hin, if_pos (hplace.mp hin), hline, hbyte]
      rfl
    · rw [if_neg hin, if_neg (mt hplace.mpr hin)]

end State

/-- One block more is painted on top of the others. -/
theorem painted_concat (top : Nat) (blocks : List (Option Block)) (b : Option Block) (old : Pixels) (row k : Nat) :
    painted top (blocks ++ [b]) old row k =
      if top ≤ row ∧ rowBlocks * ((row - top) / 4) + k / 8 = blocks.length then
        (b.map fun b => b.byte ((row - top) % 4) (k % 8)).getD (painted top blocks old row k)
      else painted top blocks old row k := by
  unfold painted
  by_cases htop : top ≤ row
  · simp only [htop, if_true, true_and]
    generalize rowBlocks * ((row - top) / 4) + k / 8 = n
    rcases Nat.lt_trichotomy n blocks.length with hn | hn | hn
    · rw [List.getElem?_append_left hn, if_neg (by omega)]
    · rw [hn, List.getElem?_concat_length, if_pos rfl, List.getElem?_eq_none (Nat.le_refl _)]
      rfl
    · rw [List.getElem?_eq_none (by rw [List.length_append]; exact hn), List.getElem?_eq_none (by omega), if_neg (by omega)]
  · simp only [htop, if_false, false_and]

/-- Blocks painted one after the other look like the picture that is painted by them. -/
theorem pixels_steps {s : State} {top : Nat} (h : s.At top 0) (hframe : s.frame.size = frameBytes)
    (blocks : List (Option Block)) :
    (blocks.foldl State.step s).At top blocks.length ∧ (blocks.foldl State.step s).frame.size = frameBytes ∧
      ∀ row < Avi.frameHeight, ∀ k < pitch,
        pixels (blocks.foldl State.step s).frame row k = painted top blocks (pixels s.frame) row k := by
  induction blocks using List.reverseRecOn with
  | nil =>
    refine ⟨h, hframe, fun row _ k _ => ?_⟩
    simp [painted]
  | append_singleton blocks b ih =>
    obtain ⟨hat, hsize, hpixels⟩ := ih
    rw [List.foldl_append, List.foldl_cons, List.foldl_nil, List.length_append]
    refine ⟨hat.step b, State.size_step hsize b, fun row hrow k hk => ?_⟩
    rw [hat.pixels_step hsize b hrow hk, painted_concat, hpixels row hrow k hk]

end Adventure.Cinepak
