import Mathlib.Tactic.Ring
import Adventure.Proofs.Codec.LzssEncoding

/-! The tokens that a writer laid out are decoded one by one. While a block is read, the
flags left of the open word and the bytes at the reading position are those that the
writer laid out for the pieces still to come; every step of the decoder keeps this. -/

namespace Adventure.Lzss

open Bytes (Holds)

variable {src out : ByteArray} {s : Source} {l : List Piece} {x : List UInt8}

/-! ### Flag words -/

theorem bitsValue_lt (flags : List Bool) : bitsValue flags < 2 ^ flags.length := by
  induction flags with
  | nil => decide
  | cons b flags ih =>
    have hb := Bool.toNat_lt b
    rw [bitsValue, List.length_cons, pow_succ]
    omega

theorem flagWord_toNat {flags : List Bool} (h : flags.length ≤ 16) :
    (flagWord flags).toNat = bitsValue flags := by
  have hv := bitsValue_lt flags
  have hp : 2 ^ flags.length ≤ 2 ^ 16 := Nat.pow_le_pow_right (by decide) h
  exact UInt16.toNat_ofNat_of_lt' (by change _ < 2 ^ 16; omega)

/-- The lowest bit of a flag word is its first flag. -/
theorem flagWord_and_one (b : Bool) {flags : List Bool} (h : flags.length < 16) :
    decide (flagWord (b :: flags) &&& 1 = 1) = b := by
  have hlen : (b :: flags).length ≤ 16 := h
  have hv : (flagWord (b :: flags) &&& 1).toNat = b.toNat := by
    rw [UInt16.toNat_and, flagWord_toNat hlen, bitsValue, UInt16.toNat_one, Nat.and_one_is_mod]
    have hb := Bool.toNat_lt b
    omega
  cases b
  · exact decide_eq_false fun h1 => absurd (h1 ▸ hv) (by decide)
  · exact decide_eq_true (UInt16.toNat_inj.mp hv)

theorem flagWord_shiftRight (b : Bool) {flags : List Bool} (h : flags.length < 16) :
    flagWord (b :: flags) >>> 1 = flagWord flags := by
  have hlen : (b :: flags).length ≤ 16 := h
  have hb := Bool.toNat_lt b
  rw [← UInt16.toNat_inj, UInt16.toNat_shiftRight, flagWord_toNat hlen, flagWord_toNat h.le, bitsValue]
  simp only [UInt16.reduceToNat, Nat.reduceMod, Nat.shiftRight_eq_div_pow]
  omega

/-- The open word has room for the flags that are laid out for it. -/
theorem length_lay_le (left : Nat) (l : List Piece) (h : 1 ≤ left) : (lay left l).1.length ≤ left := by
  induction l generalizing left with
  | nil => simp [lay]
  | cons p l ih =>
    cases p with
    | byte b => exact ih left h
    | flag b =>
      rw [lay]
      split
      · exact h
      · have := ih (left - 1) (by omega)
        rw [List.length_cons]
        omega

/-! ### Reading what was laid out -/

/-- The source goes on with the pieces `l`. -/
structure Delivers (src : ByteArray) (s : Source) (l : List Piece) : Prop where
  pos_left : 1 ≤ s.left
  left_le : s.left ≤ 16
  bits_eq : s.bits = flagWord (lay s.left l).1
  holds : Holds src s.pos (lay s.left l).2

theorem Delivers.refill {pos : Nat} (h : Holds src pos (stream l)) : Delivers src (Source.refill src pos) l where
  pos_left := by simp [Source.refill]
  left_le := le_refl 16
  bits_eq := by
    unfold Source.refill
    rw [h.left.le16]
    rfl
  holds := h.right

theorem Delivers.flag {b : Bool} (h : Delivers src s (.flag b :: l)) :
    ∃ t, s.bit src = (b, t) ∧ Delivers src t l := by
  obtain ⟨hpos, hle, hbits, hholds⟩ := h
  rw [lay] at hbits hholds
  unfold Source.bit
  -- The last flag of a word makes the source take the next one.
  by_cases hlast : s.left ≤ 1
  · rw [if_pos hlast] at hbits hholds ⊢
    refine ⟨_, ?_, Delivers.refill hholds⟩
    rw [hbits, flagWord_and_one b (by decide)]
  · rw [if_neg hlast] at hbits hholds ⊢
    have hlen : (lay (s.left - 1) l).1.length < 16 := by
      have := length_lay_le (s.left - 1) l (by omega)
      omega
    refine ⟨⟨s.pos, s.bits >>> 1, s.left - 1⟩, ?_, ⟨?_, ?_, ?_, hholds⟩⟩
    · rw [hbits, flagWord_and_one b hlen]
    · simp only
      omega
    · simp only
      omega
    · simp only
      rw [hbits, flagWord_shiftRight b hlen]

theorem Delivers.byte {b : UInt8} (h : Delivers src s (.byte b :: l)) :
    ∃ t, s.byte src = .ok (b, t) ∧ Delivers src t l := by
  obtain ⟨hpos, hle, hbits, hholds⟩ := h
  refine ⟨{ s with pos := s.pos + 1 }, ?_, ⟨hpos, hle, hbits, hholds.tail⟩⟩
  simp only [Source.byte, hholds.head]

theorem Delivers.word {w : UInt16} (h : Delivers src s ((Bytes.word w).map .byte ++ l)) :
    ∃ t, s.word src = .ok (w, t) ∧ Delivers src t l := by
  obtain ⟨hpos, hle, hbits, hholds⟩ := h
  have hw : Holds src s.pos (Bytes.word w ++ (lay s.left l).2) := hholds
  refine ⟨{ s with pos := s.pos + 2 }, ?_, ⟨hpos, hle, hbits, hw.right⟩⟩
  simp only [Source.word, hw.left.le16]

/-! ### Code words -/

theorem and_mask (n i k : Nat) : n &&& (2 ^ k - 1) <<< i = 2 ^ i * (n / 2 ^ i % 2 ^ k) := by
  rw [Nat.mul_comm, ← Nat.shiftRight_eq_div_pow, ← Nat.shiftLeft_eq]
  apply Nat.eq_of_testBit_eq
  intro j
  by_cases h : i ≤ j
  · simp [Nat.testBit_and, Nat.testBit_shiftLeft, Nat.testBit_two_pow_sub_one, Nat.testBit_mod_two_pow, h,
      Bool.and_comm]
  · simp [Nat.testBit_shiftLeft, h]

theorem codeWord_toNat {distance field : Nat} (hd : 1 ≤ distance ∧ distance ≤ 8192) (hf : field < 8) :
    (codeWord distance field).toNat =
      (8192 - distance) % 256 + 256 * field + 2048 * ((8192 - distance) / 256) :=
  UInt16.toNat_ofNat_of_lt' (by change _ < 65536; omega)

theorem longDistance_codeWord {distance field : Nat} (hd : 1 ≤ distance ∧ distance ≤ 8192) (hf : field < 8) :
    longDistance (codeWord distance field) = distance := by
  have hc := codeWord_toNat hd hf
  generalize codeWord distance field = c at hc ⊢
  have hhigh : c.toNat / 8 &&& 0x1F00 = 2 ^ 8 * (c.toNat / 8 / 2 ^ 8 % 2 ^ 5) := and_mask _ 8 5
  have hlow : c.toNat &&& 0xFF = c.toNat % 2 ^ 8 := Nat.and_two_pow_sub_one_eq_mod _ 8
  simp only [longDistance, UInt16.toNat_or, UInt16.toNat_and, UInt16.toNat_shiftRight, UInt16.reduceToNat,
    Nat.reduceMod, Nat.shiftRight_eq_div_pow, Nat.reducePow] at hhigh hlow ⊢
  rw [hhigh, hlow, ← Nat.two_pow_add_eq_or_of_lt (i := 8) (Nat.mod_lt _ (by decide))]
  omega
theorem codeWord_field {distance field : Nat} (hd : 1 ≤ distance ∧ distance ≤ 8192) (hf : field < 8) :
    ((codeWord distance field >>> 8) &&& 7).toNat = field := by
  have hmask (n : Nat) : n &&& 7 = n % 2 ^ 3 := Nat.and_two_pow_sub_one_eq_mod _ 3
  simp only [UInt16.toNat_and, UInt16.toNat_shiftRight, UInt16.reduceToNat, Nat.reduceMod,
    Nat.shiftRight_eq_div_pow, codeWord_toNat hd hf, hmask]
  omega

theorem codeWord_plain {distance field : Nat} (hd : 1 ≤ distance ∧ distance ≤ 8192) (hf : field < 8) :
    codeWord distance field &&& 0x700 = 0 ↔ field = 0 := by
  have hmask (n : Nat) : n &&& 0x700 = 2 ^ 8 * (n / 2 ^ 8 % 2 ^ 3) := and_mask n 8 3
  rw [← UInt16.toNat_inj]
  simp only [UInt16.toNat_and, UInt16.reduceToNat, codeWord_toNat hd hf, hmask]
  omega

/-! ### Tokens -/

/-- The token that an item is read as. -/
def Item.token : Item → Token
  | .literal b => .literal b
  | .short distance size => .copy distance size
  | .long distance size => .copy distance size
  | .longer distance size => .copy distance size
  | .idle _ => .idle

theorem Delivers.literal {b : UInt8} (h : Delivers src s ([.flag true, .byte b] ++ l)) :
    ∃ t, readToken src s = .ok (.literal b, t) ∧ Delivers src t l := by
  obtain ⟨s₁, h₁, hs₁⟩ := h.flag
  obtain ⟨s₂, h₂, hs₂⟩ := hs₁.byte
  refine ⟨s₂, ?_, hs₂⟩
  simp only [readToken, h₁, if_true, readLiteral, h₂]

theorem Delivers.short {distance field : Nat} (hd : 1 ≤ distance ∧ distance ≤ 256) (hf : field < 4)
    (h : Delivers src s (shortPieces distance field ++ l)) :
    ∃ t, readToken src s = .ok (.copy distance (field + 2), t) ∧ Delivers src t l := by
  obtain ⟨s₁, h₁, hs₁⟩ := h.flag
  obtain ⟨s₂, h₂, hs₂⟩ := hs₁.flag
  obtain ⟨s₃, h₃, hs₃⟩ := hs₂.flag
  obtain ⟨s₄, h₄, hs₄⟩ := hs₃.flag
  obtain ⟨s₅, h₅, hs₅⟩ := hs₄.byte
  have hback : 256 - (UInt8.ofNat (256 - distance)).toNat = distance := by
    rw [UInt8.toNat_ofNat']
    omega
  have hsize : 2 * (decide (field / 2 = 1)).toNat + (decide (field % 2 = 1)).toNat + 2 = field + 2 := by
    obtain rfl | rfl | rfl | rfl : field = 0 ∨ field = 1 ∨ field = 2 ∨ field = 3 := by omega
    all_goals rfl
  refine ⟨s₅, ?_, hs₅⟩
  simp only [readToken, h₁, h₂, Bool.false_eq_true, if_false, readShort, h₃, h₄, h₅, hback, hsize]

theorem Delivers.long {distance field : Nat} (hd : 1 ≤ distance ∧ distance ≤ 8192) (hf : 1 ≤ field ∧ field < 8)
    (h : Delivers src s (longPieces distance field ++ l)) :
    ∃ t, readToken src s = .ok (.copy distance (field + 2), t) ∧ Delivers src t l := by
  obtain ⟨s₁, h₁, hs₁⟩ := h.flag
  obtain ⟨s₂, h₂, hs₂⟩ := hs₁.flag
  obtain ⟨s₃, h₃, hs₃⟩ := hs₂.word
  have hfield : ¬ codeWord distance field &&& 0x700 = 0 := by
    rw [codeWord_plain hd hf.2]
    omega
  refine ⟨s₃, ?_, hs₃⟩
  simp only [readToken, h₁, h₂, Bool.false_eq_true, if_false, if_true, readLong, h₃, if_neg hfield,
    longDistance_codeWord hd hf.2, codeWord_field hd hf.2]

theorem Delivers.escape {distance : Nat} (hd : 1 ≤ distance ∧ distance ≤ 8192) {n : UInt8}
    (h : Delivers src s (escapePieces distance n ++ l)) :
    ∃ t, readToken src s = .ok (ofLengthByte distance n, t) ∧ Delivers src t l := by
  rw [escapePieces, List.append_assoc] at h
  obtain ⟨s₁, h₁, hs₁⟩ := h.flag
  obtain ⟨s₂, h₂, hs₂⟩ := hs₁.flag
  obtain ⟨s₃, h₃, hs₃⟩ := hs₂.word
  obtain ⟨s₄, h₄, hs₄⟩ := hs₃.byte
  have hfield : codeWord distance 0 &&& 0x700 = 0 := (codeWord_plain hd (by decide)).mpr rfl
  refine ⟨s₄, ?_, hs₄⟩
  simp only [readToken, h₁, h₂, Bool.false_eq_true, if_false, if_true, readLong, h₃, if_pos hfield, h₄,
    longDistance_codeWord hd (by decide : 0 < 8)]

/-- What is laid out for an item is read as its token. -/
theorem Delivers.item {i : Item} (h : Delivers src s (i.pieces ++ l)) :
    ∃ t, readToken src s = .ok (i.token, t) ∧ Delivers src t l := by
  cases i with
  | literal b => exact h.literal
  | short distance size =>
    have hsize : size.val - 2 + 2 = size := Nat.sub_add_cancel size.2.1
    have hread := Delivers.short distance.2 (by have := size.2; omega) h
    rwa [hsize] at hread
  | long distance size =>
    have hsize : size.val - 2 + 2 = size := Nat.sub_add_cancel (by have := size.2; omega)
    have hread := Delivers.long distance.2 (by have := size.2; omega) h
    rwa [hsize] at hread
  | longer distance size =>
    have hn : (UInt8.ofNat (size.val - 1)).toNat = size.val - 1 :=
      UInt8.toNat_ofNat_of_lt' (by have := size.2; change _ < 256; omega)
    have hread := Delivers.escape distance.2 h
    have htoken : ofLengthByte distance (UInt8.ofNat (size.val - 1)) = .copy distance size := by
      have hsize := size.2
      unfold ofLengthByte
      rw [if_neg, if_neg, if_neg, hn, Nat.sub_add_cancel (by omega)]
      all_goals
        rw [← UInt8.toNat_inj, hn]
        simp only [UInt8.reduceToNat]
        omega
    rwa [htoken] at hread
  | idle distance => exact Delivers.escape distance.2 h

/-! ### Output -/

theorem back?_eq {distance : Nat} {b : UInt8} (hd : 1 ≤ distance) (h : back? (Bytes.list out) distance = some b) :
    distance ≤ out.size ∧ Bytes.at0 out (out.size - distance) = b := by
  unfold back? at h
  have hlt : distance - 1 < (Bytes.list out).length := by
    obtain ⟨hlt, -⟩ := List.getElem?_eq_some_iff.mp h
    rwa [List.length_reverse] at hlt
  have hlen : distance ≤ out.size := by
    rw [Bytes.length_list] at hlt
    omega
  refine ⟨hlen, ?_⟩
  have hi : (Bytes.list out).length - 1 - (distance - 1) = out.size - distance := by
    rw [Bytes.length_list]
    omega
  rw [List.getElem?_reverse hlt, hi] at h
  rw [Bytes.at0_eq, h]
  rfl

theorem copyBack_eq {distance size : Nat} (hd : 1 ≤ distance)
    (h : copied? distance size (Bytes.list out) = some x) : copyBack distance size out = Bytes.ofList x := by
  induction size generalizing out with
  | zero =>
    cases h
    exact (Bytes.ofList_list out).symm
  | succ size ih =>
    obtain ⟨b, hb, hrest⟩ := Option.bind_eq_some_iff.mp h
    obtain ⟨-, hat⟩ := back?_eq hd hb
    rw [copyBack, hat]
    exact ih (by rwa [Bytes.list_push])

/-- A copy that can be made does not reach before the start. -/
theorem le_size_of_copied? {distance size : Nat} (hd : 1 ≤ distance) (hs : 1 ≤ size)
    (h : copied? distance size (Bytes.list out) = some x) : distance ≤ out.size := by
  cases size with
  | zero => omega
  | succ size =>
    obtain ⟨b, hb, -⟩ := Option.bind_eq_some_iff.mp h
    exact (back?_eq hd hb).1

/-- The number of bytes that an item stands for. -/
def Item.size : Item → Nat
  | .literal _ => 1
  | .short _ size => size
  | .long _ size => size
  | .longer _ size => size
  | .idle _ => 0

theorem length_copied? {distance size : Nat} {y : List UInt8} (h : copied? distance size y = some x) :
    x.length = y.length + size := by
  induction size generalizing y with
  | zero =>
    cases h
    rfl
  | succ size ih =>
    obtain ⟨b, -, hrest⟩ := Option.bind_eq_some_iff.mp h
    rw [ih hrest, List.length_append, List.length_singleton]
    omega

theorem Item.length_expand? {i : Item} {y : List UInt8} (h : i.expand? y = some x) :
    x.length = y.length + i.size := by
  cases i with
  | literal b =>
    cases h
    simp [Item.size]
  | short distance size => exact length_copied? h
  | long distance size => exact length_copied? h
  | longer distance size => exact length_copied? h
  | idle distance =>
    cases h
    rfl

theorem length_foldlM {α : Type} (f : List UInt8 → α → Option (List UInt8)) (size : α → Nat)
    (hf : ∀ {y a z}, f y a = some z → z.length = y.length + size a) {k : List α} {y : List UInt8}
    (h : k.foldlM f y = some x) : x.length = y.length + (k.map size).sum := by
  induction k generalizing y with
  | nil =>
    cases h
    rfl
  | cons a k ih =>
    rw [List.foldlM_cons] at h
    obtain ⟨z, hz, hrest⟩ := Option.bind_eq_some_iff.mp h
    rw [ih hrest, hf hz, List.map_cons, List.sum_cons]
    omega

def Block.size (b : Block) : Nat := (b.items.map Item.size).sum

theorem Block.length_expand? {b : Block} {y : List UInt8} (h : b.expand? y = some x) :
    x.length = y.length + b.size :=
  length_foldlM Item.expand? Item.size Item.length_expand? h

theorem length_foldlM_expand? {blocks : List Block} {y : List UInt8}
    (h : blocks.foldlM Block.expand? y = some x) : x.length = y.length + (blocks.map Block.size).sum :=
  length_foldlM Block.expand? Block.size Block.length_expand? h

/-! ### One block -/

section

variable {limit : Nat}

theorem decodeTokens_eq {t : Source} {k : Token} (hlen : out.size ≤ limit) :
    readToken src s = .ok (k, t) → decodeTokens src limit s out =
      match k with
      | .literal b => decodeTokens src limit t (out.push b)
      | .idle => decodeTokens src limit t out
      | .copy distance size =>
        if out.size < distance then .error (.reference distance out.size)
        else decodeTokens src limit t (copyBack distance size out)
      | .endBlock => .ok (out, false)
      | .endData => .ok (out, true) := by
  intro h
  rw [decodeTokens, if_neg (Nat.not_lt.mpr hlen)]
  split <;> rename_i h' <;> rw [h] at h' <;> cases h' <;> rfl

theorem decodeTokens_copy {t : Source} {distance size : Nat} (hlen : out.size ≤ limit) (hd : 1 ≤ distance)
    (hs : 1 ≤ size) (h : readToken src s = .ok (.copy distance size, t))
    (hx : copied? distance size (Bytes.list out) = some x) :
    decodeTokens src limit s out = decodeTokens src limit t (Bytes.ofList x) := by
  rw [decodeTokens_eq hlen h]
  simp only
  rw [if_neg (Nat.not_lt.mpr (le_size_of_copied? hd hs hx)), copyBack_eq hd hx]

/-- One item is decoded to what it stands for, and the source goes on behind it. -/
theorem decodeTokens_item {i : Item} (h : Delivers src s (i.pieces ++ l)) (hlen : out.size ≤ limit)
    (hx : i.expand? (Bytes.list out) = some x) :
    ∃ t, Delivers src t l ∧ decodeTokens src limit s out = decodeTokens src limit t (Bytes.ofList x) := by
  obtain ⟨t, hread, ht⟩ := h.item
  refine ⟨t, ht, ?_⟩
  cases i with
  | literal b =>
    cases hx
    rw [decodeTokens_eq hlen hread, ← Bytes.list_push, Bytes.ofList_list]
    rfl
  | short distance size =>
    exact decodeTokens_copy hlen distance.2.1 (le_trans (by decide) size.2.1) hread hx
  | long distance size =>
    exact decodeTokens_copy hlen distance.2.1 (le_trans (by decide) size.2.1) hread hx
  | longer distance size =>
    exact decodeTokens_copy hlen distance.2.1 (le_trans (by decide) size.2.1) hread hx
  | idle distance =>
    cases hx
    rw [decodeTokens_eq hlen hread, Bytes.ofList_list]
    rfl

theorem decodeTokens_closing {d : Between 1 8192} {more : Bool}
    (h : Delivers src s (escapePieces d (closing more))) (hlen : out.size ≤ limit) :
    decodeTokens src limit s out = .ok (out, !more) := by
  rw [← List.append_nil (escapePieces _ _)] at h
  obtain ⟨t, hread, -⟩ := Delivers.escape d.2 h
  rw [decodeTokens_eq hlen hread]
  cases more <;> rfl

theorem decodeTokens_block {b : Block} {more : Bool} (h : Delivers src s (b.pieces more)) {y : List UInt8}
    (hx : b.expand? y = some x) (hlen : x.length ≤ limit) :
    decodeTokens src limit s (Bytes.ofList y) = .ok (Bytes.ofList x, !more) := by
  obtain ⟨items, mark⟩ := b
  unfold Block.expand? at hx
  unfold Block.pieces at h
  simp only at hx h
  induction items generalizing s y with
  | nil =>
    cases hx
    exact decodeTokens_closing h (by rwa [Bytes.size_ofList])
  | cons i items ih =>
    rw [List.foldlM_cons] at hx
    obtain ⟨z, hz, hrest⟩ := Option.bind_eq_some_iff.mp hx
    -- The output only grows, so that it stays below the limit that its end keeps to.
    have hlenz := Item.length_expand? hz
    have hlenx := length_foldlM Item.expand? Item.size Item.length_expand? hrest
    rw [List.flatMap_cons, List.append_assoc] at h
    have hleny : (Bytes.ofList y).size ≤ limit := by
      rw [Bytes.size_ofList]
      omega
    obtain ⟨t, ht, hstep⟩ := decodeTokens_item h hleny (by rwa [Bytes.list_ofList])
    rw [hstep]
    exact ih ht hrest

end

end Adventure.Lzss
