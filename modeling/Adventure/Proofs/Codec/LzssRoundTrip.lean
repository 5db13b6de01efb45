import Adventure.Proofs.Codec.LzssBlock

/-! The dictionary compression undoes what a writer does. The blocks stand one after the
other, each with the checksum of its body, and no item stands for more than 80 times the
bytes that it takes. -/

namespace Adventure.Lzss

open Bytes (Holds)

variable {src : ByteArray} {x y : List UInt8}

/-! ### Checksums -/

/-- The words that stand at a place have the checksum of their bytes. -/
theorem checksumFrom_eq {pos count : Nat} {l : List UInt8} {sum : UInt16} (h : Holds src pos l)
    (hlen : l.length = 2 * count) : checksumFrom src sum pos count = some (checksumOf sum l) := by
  induction count generalizing pos l sum with
  | zero =>
    obtain rfl := List.eq_nil_of_length_eq_zero hlen
    rfl
  | succ count ih =>
    obtain ⟨low, l, rfl⟩ := List.exists_cons_of_length_pos (by omega : 0 < l.length)
    rw [List.length_cons] at hlen
    obtain ⟨high, l, rfl⟩ := List.exists_cons_of_length_pos (by omega : 0 < l.length)
    rw [List.length_cons] at hlen
    have hword : Bytes.le16? src pos = some (low.toUInt16 ||| (high.toUInt16 <<< 8)) := by
      simp only [Bytes.le16?, h.head, h.tail.head, bind, Option.bind, pure]
    rw [checksumFrom, hword]
    exact ih h.tail.tail (by omega)

theorem Block.length_body {b : Block} {more : Bool} {units : Nat} (h : b.Fits more units) :
    (b.body more units).length = 16 * units - 2 := by
  unfold Block.Fits at h
  rw [Block.body, List.length_append, List.length_replicate]
  omega

theorem Block.length_bytes {b : Block} {more : Bool} {units : Nat} (h : b.Fits more units) :
    (b.bytes more units).length = 16 * units := by
  have hbody := Block.length_body h
  unfold Block.Fits at h
  rw [Block.bytes, List.length_append, Bytes.length_word, hbody]
  omega

theorem checkBlock_bytes {b : Block} {more : Bool} {units pos : Nat} (hfits : b.Fits more units)
    (h : Holds src pos (b.bytes more units)) : checkBlock src pos units = .ok () := by
  have hlen : (b.body more units).length = 2 * (units * 8 - 1) := by
    rw [Block.length_body hfits]
    omega
  have hsum : checksum? src (pos + 2) (units * 8 - 1) = some (checksumOf 0 (b.body more units)) :=
    checksumFrom_eq h.right hlen
  simp only [checkBlock, h.left.le16, hsum, if_true]

/-! ### All blocks -/

theorem decodeTokens_bytes {b : Block} {more : Bool} {units pos limit : Nat}
    (h : Holds src pos (b.bytes more units)) (hx : b.expand? y = some x) (hlen : x.length ≤ limit) :
    decodeTokens src limit (Source.refill src (pos + 2)) (Bytes.ofList y) = .ok (Bytes.ofList x, !more) :=
  decodeTokens_block (Delivers.refill h.right.left) hx hlen

/-- The blocks that stand at a place are decoded one after the other. -/
theorem decodeBlocks_eq {blocks : List Block} {units pos limit : Nat} (hfit : BlocksFit units blocks)
    (h : Holds src pos (blockBytes units blocks)) (hx : blocks.foldlM Block.expand? y = some x)
    (hlen : x.length ≤ limit) :
    decodeBlocks src limit (unitTotal units blocks) pos (Bytes.ofList y) = .ok (Bytes.ofList x) := by
  induction blocks generalizing pos y with
  | nil =>
    cases hx
    rw [unitTotal, decodeBlocks, if_pos rfl]
  | cons b l ih =>
    rw [List.foldlM_cons] at hx
    obtain ⟨z, hz, hrest⟩ := Option.bind_eq_some_iff.mp hx
    have hlenx := length_foldlM_expand? hrest
    -- The last block has its own number of units and ends the data; the others are full.
    cases l with
    | nil =>
      obtain ⟨hb, hle⟩ := hfit
      cases hrest
      have hne : ¬ units = 0 := by
        unfold Block.Fits at hb
        omega
      rw [unitTotal, decodeBlocks, if_neg hne, Nat.min_eq_left hle, checkBlock_bytes hb h]
      simp only [decodeTokens_bytes h hz hlen, Bool.not_false]
    | cons c l =>
      obtain ⟨hb, hfit⟩ := hfit
      have hne : ¬ blockUnits + unitTotal units (c :: l) = 0 := by
        unfold blockUnits
        omega
      have hnext : pos + blockSize = pos + (b.bytes true blockUnits).length := by
        rw [Block.length_bytes hb]
        rfl
      rw [unitTotal, decodeBlocks, if_neg hne, Nat.min_eq_right (Nat.le_add_right _ _),
        checkBlock_bytes hb h.left]
      simp only [decodeTokens_bytes h.left hz (le_trans (by omega) hlen), Bool.not_true]
      rw [Nat.add_sub_cancel_left, hnext]
      exact ih hfit h.right hrest

/-! ### The ratio -/

/-- The bytes that a piece may stand for: a flag counts as an eighth of a byte. -/
def Piece.weight : Piece → Nat
  | .flag _ => maxRatio / 8
  | .byte _ => maxRatio

def weight (l : List Piece) : Nat := (l.map Piece.weight).sum

theorem weight_append (k l : List Piece) : weight (k ++ l) = weight k + weight l := by
  rw [weight, List.map_append, List.sum_append]
  rfl

/-- An item stands for no more bytes than its pieces may. -/
theorem Item.size_le (i : Item) : i.size ≤ weight i.pieces := by
  cases i with
  | literal b => exact (by decide : 1 ≤ 90)
  | short distance size => exact le_trans size.2.2 (by decide : 5 ≤ 120)
  | long distance size => exact le_trans size.2.2 (by decide : 9 ≤ 180)
  | longer distance size => exact le_trans size.2.2 (by decide : 256 ≤ 260)
  | idle distance => exact Nat.zero_le _

theorem Block.size_le (b : Block) (more : Bool) : b.size ≤ weight (b.pieces more) := by
  rw [Block.pieces, weight_append, Block.size]
  apply Nat.le_add_right_of_le
  induction b.items with
  | nil => exact Nat.zero_le _
  | cons i items ih =>
    rw [List.map_cons, List.sum_cons, List.flatMap_cons, weight_append]
    exact Nat.add_le_add i.size_le ih

/-- The flags that are free in the open word count for the pieces that are laid out. -/
theorem weight_le_lay (left : Nat) (l : List Piece) (h : 1 ≤ left) :
    weight l ≤ maxRatio * (lay left l).2.length + maxRatio / 8 * left := by
  induction l generalizing left with
  | nil => exact Nat.zero_le _
  | cons p l ih =>
    have hcons : weight (p :: l) = p.weight + weight l := List.sum_cons
    rw [hcons]
    cases p with
    | byte b =>
      have hrest := ih left h
      rw [lay, List.length_cons, Nat.mul_succ, Piece.weight]
      omega
    | flag b =>
      rw [lay, Piece.weight]
      split
      · have hrest := ih 16 (by decide)
        rw [List.length_append, Bytes.length_word]
        unfold maxRatio at hrest ⊢
        omega
      · have hrest := ih (left - 1) (by omega)
        simp only [maxRatio] at hrest ⊢
        omega

theorem weight_le_stream (l : List Piece) : weight l ≤ maxRatio * (stream l).length := by
  have hlay := weight_le_lay 16 l (by decide)
  rw [stream, List.length_append, Bytes.length_word]
  unfold maxRatio at hlay ⊢
  omega

theorem Block.size_le_bytes (b : Block) (more : Bool) (units : Nat) :
    b.size ≤ maxRatio * (b.bytes more units).length := by
  have hstream : (stream (b.pieces more)).length ≤ (b.bytes more units).length := by
    rw [Block.bytes, Block.body, List.length_append, List.length_append]
    omega
  exact le_trans (b.size_le more) (le_trans (weight_le_stream _) (Nat.mul_le_mul_left _ hstream))

theorem size_le_blockBytes (blocks : List Block) (units : Nat) :
    (blocks.map Block.size).sum ≤ maxRatio * (blockBytes units blocks).length := by
  induction blocks with
  | nil => exact Nat.zero_le _
  | cons b l ih =>
    rw [List.map_cons, List.sum_cons]
    cases l with
    | nil => exact b.size_le_bytes false units
    | cons c l =>
      have hb := b.size_le_bytes true blockUnits
      rw [blockBytes, List.length_append, Nat.mul_add]
      exact Nat.add_le_add hb ih

/-! ### The whole resource -/

theorem length_encode (blocks : List Block) (units n : Nat) :
    (encode blocks units n).size = 8 + (blockBytes units blocks).length := by
  rw [encode, Bytes.size_ofList, List.length_append, List.length_append, Bytes.length_long, Bytes.length_long]

/-- A resource whose blocks fit is decoded to what the blocks stand for, whatever its ratio. -/
theorem decode_encode {blocks : List Block} {units : Nat} {out : List UInt8} (hfits : Fits blocks units)
    (hout : expand? blocks = some out) (hlen : out.length ≤ maxDecodedSize) :
    decode (encode blocks units out.length) = .ok (Bytes.ofList out) := by
  obtain ⟨hfit, htotal⟩ := hfits
  have hheld := Bytes.holds_list (encode blocks units out.length)
  rw [encode, Bytes.list_ofList, ← encode, List.append_assoc] at hheld
  have hfront : Bytes.le32? (encode blocks units out.length) 0 = some (UInt32.ofNat out.length) := hheld.left.le32
  have hback : Bytes.le32? (encode blocks units out.length) 4 = some (UInt32.ofNat (unitTotal units blocks)) :=
    hheld.right.left.le32
  have hn : (UInt32.ofNat out.length).toNat = out.length :=
    UInt32.toNat_ofNat_of_lt' (lt_of_le_of_lt hlen (by decide))
  have hunits : (UInt32.ofNat (unitTotal units blocks)).toNat = unitTotal units blocks :=
    UInt32.toNat_ofNat_of_lt' htotal
  have hratio : ¬ min ((encode blocks units out.length).size * maxRatio) maxDecodedSize < out.length := by
    have hblocks := size_le_blockBytes blocks units
    have hexpand := length_foldlM_expand? hout
    rw [List.length_nil] at hexpand
    rw [length_encode, Nat.mul_comm, Nat.mul_add]
    omega
  have hrun : decodeBlocks (encode blocks units out.length) out.length (unitTotal units blocks) 8 ByteArray.empty =
      .ok (Bytes.ofList out) :=
    decodeBlocks_eq hfit hheld.right.right hout (le_refl _)
  have hfull : finish out.length (Bytes.ofList out) = .ok (Bytes.ofList out) := by
    rw [finish, Bytes.size_ofList, if_neg (lt_irrefl _), Nat.sub_self]
    rfl
  simp only [decode, hfront, hback, hn, hunits, if_neg hratio, hrun, hfull]

/-- Two blocks with every kind of item. -/
def twoBlocks : List Block :=
  [⟨[.literal 7, .literal 8, .idle ⟨9, by decide⟩, .longer ⟨2, by decide⟩ ⟨20, by decide⟩], ⟨1, by decide⟩⟩,
    ⟨[.long ⟨22, by decide⟩ ⟨9, by decide⟩, .short ⟨3, by decide⟩ ⟨5, by decide⟩], ⟨8192, by decide⟩⟩]

theorem decode_encode_twoBlocks :
    Fits twoBlocks 1 ∧ expand? twoBlocks = some ((List.replicate 15 [7, 8]).flatten ++ [7, 7, 8, 7, 7, 8]) ∧
      decode (encode twoBlocks 1 36) =
        .ok (Bytes.ofList ((List.replicate 15 [7, 8]).flatten ++ [7, 7, 8, 7, 7, 8])) := by
  have hfits : Fits twoBlocks 1 := ⟨by decide, by decide⟩
  have hexpand : expand? twoBlocks = some ((List.replicate 15 [7, 8]).flatten ++ [7, 7, 8, 7, 7, 8]) := by decide
  have hdecode := decode_encode hfits hexpand (by decide)
  exact ⟨hfits, hexpand, hdecode⟩

end Adventure.Lzss
