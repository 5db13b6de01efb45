import Adventure.Picture.Tga
import Adventure.Proofs.Bytes.Fields
import Mathlib.Data.List.Chain

/-! Packets of screenshots. A run that grows pixel by pixel is told from the packets that it ends in, and a reader of
packets gets back the pixels that were coded. Two packets of one colour follow each other only where the first is full. -/

namespace Adventure.Tga

open Bytes (list)

/-- A number of pixels of one colour. -/
structure Packet where
  count : Nat
  color : Rgb
  deriving DecidableEq, Repr

namespace Packet

def pixels (p : Packet) : List Rgb := List.replicate p.count p.color

def bytes (p : Packet) : List UInt8 := [0x80 ||| (p.count - 1).toUInt8, p.color.b, p.color.g, p.color.r]

/-- The number of pixels has a place in the seven bits of a packet. -/
def Fits (p : Packet) : Prop := 1 ≤ p.count ∧ p.count ≤ maxRun

end Packet

/-- Reads packets up to the end. Whatever else stands there is refused. -/
def readPackets : List UInt8 → Option (List Packet)
  | [] => some []
  | n :: b :: g :: r :: rest =>
    if n &&& 0x80 = 0 then none else (readPackets rest).map (⟨(n &&& 0x7F).toNat + 1, ⟨r, g, b⟩⟩ :: ·)
  | _ => none

/-- The packets of a run of `n` pixels `c` and of the pixels behind it. -/
def packetsFrom (n : Nat) (c : Rgb) : List Rgb → List Packet
  | [] => [⟨n, c⟩]
  | d :: l => if d = c ∧ n < maxRun then packetsFrom (n + 1) c l else ⟨n, c⟩ :: packetsFrom 1 d l

/-- The packets of an image. -/
def packets : List Rgb → List Packet
  | [] => []
  | c :: l => packetsFrom 1 c l

/-- Two packets that follow each other differ in colour, or the first of them is full. -/
def Parted (p q : Packet) : Prop := p.color = q.color → p.count = maxRun

variable {n : Nat} {c : Rgb} {l : List Rgb}

/-! ### What is written -/

theorem list_pushPacket (out : ByteArray) (n : Nat) (c : Rgb) :
    list (pushPacket out n c) = list out ++ Packet.bytes ⟨n, c⟩ := by
  simp [pushPacket, Packet.bytes]

theorem list_pushPackets (out : ByteArray) (n : Nat) (c : Rgb) (l : List Rgb) :
    list (pushPackets out n c l) = list out ++ (packetsFrom n c l).flatMap Packet.bytes := by
  induction l generalizing out n c with
  | nil => simp [pushPackets, packetsFrom, list_pushPacket]
  | cons d l ih =>
    rw [pushPackets, packetsFrom]
    split
    · exact ih out (n + 1) c
    · rw [ih, list_pushPacket, List.flatMap_cons, List.append_assoc]

theorem list_header (w h : Nat) :
    list (header w h) =
      [0, 0, 10] ++ List.replicate 9 0 ++ Bytes.word w.toUInt16 ++ Bytes.word h.toUInt16 ++ [24, 0x20] := by
  simp [header]

theorem length_header (w h : Nat) : (list (header w h)).length = 18 := by simp [list_header]

theorem list_encode (pixels : List Rgb) (w h : Nat) :
    list (encode pixels w h) = list (header w h) ++ (packets (pixels.take (w * h))).flatMap Packet.bytes := by
  unfold encode
  cases pixels.take (w * h) with
  | nil => simp [packets]
  | cons c l => exact list_pushPackets _ 1 c l

/-! ### The packets of a run -/

theorem pixels_packetsFrom (n : Nat) (c : Rgb) (l : List Rgb) :
    (packetsFrom n c l).flatMap Packet.pixels = List.replicate n c ++ l := by
  induction l generalizing n c with
  | nil => simp [packetsFrom, Packet.pixels]
  | cons d l ih =>
    rw [packetsFrom]
    split
    · rename_i h
      rw [ih, h.1, List.replicate_succ', List.append_assoc, List.singleton_append]
    · rw [List.flatMap_cons, ih]
      rfl

theorem fits_packetsFrom (h : 1 ≤ n ∧ n ≤ maxRun) : ∀ p ∈ packetsFrom n c l, p.Fits := by
  induction l generalizing n c with
  | nil =>
    intro p hp
    obtain rfl := List.mem_singleton.mp hp
    exact h
  | cons d l ih =>
    rw [packetsFrom]
    split
    · rename_i hrun
      exact ih ⟨Nat.le_add_left 1 n, hrun.2⟩
    · exact List.forall_mem_cons.mpr ⟨h, ih ⟨Nat.le_refl 1, by decide⟩⟩

theorem head?_packetsFrom : ∀ p ∈ (packetsFrom n c l).head?, p.color = c := by
  induction l generalizing n with
  | nil => simp [packetsFrom]
  | cons d l ih =>
    rw [packetsFrom]
    split
    · exact ih
    · simp

/-- A packet is closed by another colour or when it is full. -/
theorem parted_packetsFrom (h : n ≤ maxRun) : (packetsFrom n c l).IsChain Parted := by
  induction l generalizing n c with
  | nil => exact .singleton _
  | cons d l ih =>
    rw [packetsFrom]
    split
    · rename_i hrun
      exact ih hrun.2
    · rename_i hclosed
      refine List.isChain_cons.mpr ⟨fun p hp hcolor => ?_, ih (by decide)⟩
      have hd : d = c := (head?_packetsFrom p hp).symm.trans hcolor.symm
      have hfull : ¬n < maxRun := fun hlt => hclosed ⟨hd, hlt⟩
      exact Nat.le_antisymm h (Nat.not_lt.mp hfull)

/-! ### What is read -/

theorem count_bits : ∀ k < maxRun,
    (0x80 ||| k.toUInt8) &&& 0x80 ≠ 0 ∧ ((0x80 ||| k.toUInt8) &&& 0x7F).toNat = k := by decide

theorem readPackets_bytes {ps : List Packet} (h : ∀ p ∈ ps, p.Fits) :
    readPackets (ps.flatMap Packet.bytes) = some ps := by
  induction ps with
  | nil => rfl
  | cons p ps ih =>
    obtain ⟨hp, hps⟩ := List.forall_mem_cons.mp h
    obtain ⟨hmark, hcount⟩ := count_bits (p.count - 1) (Nat.lt_of_lt_of_le (Nat.sub_one_lt_of_lt hp.1) hp.2)
    change readPackets (_ :: _ :: _ :: _ :: ps.flatMap Packet.bytes) = _
    rw [readPackets, if_neg hmark, ih hps, hcount, Nat.sub_add_cancel hp.1]
    rfl

/-! ### Images -/

theorem pixels_packets (l : List Rgb) : (packets l).flatMap Packet.pixels = l := by
  cases l with
  | nil => rfl
  | cons c l => exact pixels_packetsFrom 1 c l

theorem fits_packets (l : List Rgb) : ∀ p ∈ packets l, p.Fits := by
  cases l with
  | nil => simp [packets]
  | cons c l => exact fits_packetsFrom (by decide)

theorem parted_packets (l : List Rgb) : (packets l).IsChain Parted := by
  cases l with
  | nil => exact .nil
  | cons c l => exact parted_packetsFrom (by decide)

/-- A run of 129 pixels takes two packets. -/
example : packets (List.replicate 129 ⟨1, 2, 3⟩) = [⟨128, ⟨1, 2, 3⟩⟩, ⟨1, ⟨1, 2, 3⟩⟩] := by decide

end Adventure.Tga
