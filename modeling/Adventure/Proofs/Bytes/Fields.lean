import Adventure.Bytes.Basic

/-! Buffers as lists of bytes. A buffer holds bytes at a place if they stand there one
after the other; a little-endian field is read back where its bytes are held. -/

namespace Adventure.Bytes

/-- The bytes of a buffer. -/
abbrev list (b : ByteArray) : List UInt8 := b.data.toList

/-- The bytes `l` stand in the buffer from place `i` on. -/
def Holds (b : ByteArray) (i : Nat) (l : List UInt8) : Prop := l <+: (list b).drop i

/-- The two bytes of a word, the low one first. -/
def word (w : UInt16) : List UInt8 := [w.toUInt8, (w >>> 8).toUInt8]

/-- The four bytes of a double word, the lowest one first. -/
def long (w : UInt32) : List UInt8 := word w.toUInt16 ++ word (w >>> 16).toUInt16

@[simp] theorem length_word (w : UInt16) : (word w).length = 2 := rfl

@[simp] theorem length_long (w : UInt32) : (long w).length = 4 := rfl

theorem length_list (b : ByteArray) : (list b).length = b.size := rfl

theorem list_inj {a b : ByteArray} (h : list a = list b) : a = b := ByteArray.ext (Array.toList_inj.mp h)

theorem getElem?_list (b : ByteArray) (i : Nat) : (list b)[i]? = b[i]? := by
  by_cases h : i < b.size
  · rw [getElem?_pos b i h, List.getElem?_eq_getElem h]
    rfl
  · rw [getElem?_neg b i h, List.getElem?_eq_none (by rw [length_list]; omega)]

theorem at0_eq (b : ByteArray) (i : Nat) : at0 b i = (list b)[i]?.getD 0 := by
  unfold at0
  split
  · rename_i h
    rw [getElem?_list, getElem?_pos b i h]
    rfl
  · rename_i h
    rw [getElem?_list, getElem?_neg b i h]
    rfl

/-! ### Lists as buffers -/

@[simp] theorem list_empty : list ByteArray.empty = [] := rfl

@[simp] theorem list_push (b : ByteArray) (v : UInt8) : list (b.push v) = list b ++ [v] := by
  simp [list]

@[simp] theorem list_append (a b : ByteArray) : list (a ++ b) = list a ++ list b := by
  simp [list]

@[simp] theorem list_pushN (b : ByteArray) (v : UInt8) (n : Nat) :
    list (pushN b v n) = list b ++ List.replicate n v := by
  induction n generalizing b with
  | zero => simp [pushN]
  | succ n ih => rw [pushN, ih, list_push, List.append_assoc, List.replicate_succ]; rfl

@[simp] theorem list_push16 (b : ByteArray) (v : UInt16) : list (push16 b v) = list b ++ word v := by
  simp [push16, word]

@[simp] theorem list_push32 (b : ByteArray) (v : UInt32) : list (push32 b v) = list b ++ long v := by
  simp [push32, long]

theorem size_replicate (n : Nat) (v : UInt8) : (replicate n v).size = n := by
  rw [← length_list, replicate, list_pushN, List.length_append, List.length_replicate]
  exact Nat.zero_add n

@[simp] theorem list_put (b : ByteArray) (i : Nat) (v : UInt8) : list (put b i v) = (list b).set i v := by
  unfold put
  split
  · rename_i h
    exact Array.toList_set b.data i v h
  · rw [List.set_eq_of_length_le (by rw [length_list]; omega)]

theorem at0_put (b : ByteArray) (i : Nat) (v : UInt8) (k : Nat) :
    at0 (put b i v) k = if k = i ∧ i < b.size then v else at0 b k := by
  rw [at0_eq, at0_eq, list_put, List.getElem?_set, length_list]
  by_cases hk : i = k
  · subst hk
    by_cases hi : i < b.size
    · rw [if_pos rfl, if_pos hi, if_pos ⟨rfl, hi⟩]
      rfl
    · rw [if_pos rfl, if_neg hi, if_neg (fun h => hi h.2), List.getElem?_eq_none (by rw [length_list]; omega)]
  · rw [if_neg hk, if_neg (fun h => hk h.1.symm)]

private theorem list_foldl_push (l : List UInt8) (b : ByteArray) :
    list (l.foldl ByteArray.push b) = list b ++ l := by
  induction l generalizing b with
  | nil => simp
  | cons x l ih => simp [ih]

@[simp] theorem list_ofList (l : List UInt8) : list (ofList l) = l := by
  rw [ofList, list_foldl_push]
  rfl

theorem size_ofList (l : List UInt8) : (ofList l).size = l.length := by rw [← length_list, list_ofList]

theorem ofList_list (b : ByteArray) : ofList (list b) = b := list_inj (list_ofList _)

theorem list_eq_iff {b : ByteArray} {l : List UInt8} : list b = l ↔ b = ofList l := by
  constructor
  · rintro rfl
    exact (ofList_list b).symm
  · rintro rfl
    exact list_ofList l

/-! ### Items in a row -/

theorem mul_length_le_flatMap {α β : Type} {encode : α → List β} {l : List α} {n : Nat}
    (h : ∀ a ∈ l, n ≤ (encode a).length) : n * l.length ≤ (l.flatMap encode).length := by
  induction l with
  | nil => exact Nat.le_refl 0
  | cons a l ih =>
    have ha := h a List.mem_cons_self
    have hl := ih fun b hb => h b (List.mem_cons_of_mem _ hb)
    rw [List.flatMap_cons, List.length_append, List.length_cons, Nat.mul_succ]
    omega

theorem length_le_flatMap {α β : Type} {encode : α → List β} {l : List α} (h : ∀ a ∈ l, encode a ≠ []) :
    l.length ≤ (l.flatMap encode).length := by
  have hone := mul_length_le_flatMap fun a ha => List.length_pos_iff.mpr (h a ha)
  rwa [Nat.one_mul] at hone

/-! ### What a buffer holds -/

variable {b : ByteArray} {i : Nat} {k l : List UInt8}

theorem Holds.append_iff : Holds b i (k ++ l) ↔ Holds b i k ∧ Holds b (i + k.length) l := by
  unfold Holds
  constructor
  · rintro ⟨r, hr⟩
    refine ⟨⟨l ++ r, by rw [← hr, List.append_assoc]⟩, ⟨r, ?_⟩⟩
    rw [← List.drop_drop, ← hr, List.append_assoc, List.drop_left]
  · rintro ⟨⟨p, hp⟩, ⟨q, hq⟩⟩
    rw [← List.drop_drop, ← hp, List.drop_left] at hq
    exact ⟨q, by rw [← hp, ← hq, List.append_assoc]⟩

theorem Holds.left (h : Holds b i (k ++ l)) : Holds b i k := (append_iff.mp h).1

theorem Holds.right (h : Holds b i (k ++ l)) : Holds b (i + k.length) l := (append_iff.mp h).2

/-- A buffer holds its own bytes. -/
theorem holds_list (b : ByteArray) : Holds b 0 (list b) := List.prefix_rfl

theorem holds_single {x : UInt8} (h : b[i]? = some x) : Holds b i [x] := by
  rw [← getElem?_list] at h
  obtain ⟨hi, rfl⟩ := List.getElem?_eq_some_iff.mp h
  rw [Holds, List.drop_eq_getElem_cons hi]
  simp

theorem Holds.head {x : UInt8} (h : Holds b i (x :: l)) : b[i]? = some x := by
  obtain ⟨r, hr⟩ := h
  rw [← getElem?_list, ← Nat.add_zero i, ← List.getElem?_drop, ← hr]
  rfl

theorem Holds.tail {x : UInt8} (h : Holds b i (x :: l)) : Holds b (i + 1) l :=
  (append_iff (k := [x])).mp h |>.2

/-- What is held at a place inside of the buffer ends inside of it. -/
theorem Holds.le_size (h : Holds b i l) (hl : l ≠ []) : i + l.length ≤ b.size := by
  have hlen := List.IsPrefix.length_le h
  have hpos := List.length_pos_iff.mpr hl
  rw [List.length_drop, length_list] at hlen
  omega

theorem Holds.extract (h : Holds b i l) : list (b.extract i (i + l.length)) = l := by
  unfold Holds at h
  rw [List.prefix_iff_eq_take] at h
  simp only [list, ByteArray.data_extract, Array.toList_extract, List.extract_eq_take_drop,
    Nat.add_sub_cancel_left]
  exact h.symm

/-! ### Fields -/

/-- Any two bytes are those of a word. -/
theorem exists_word (b₁ b₂ : UInt8) : ∃ w : UInt16, word w = [b₁, b₂] ∧ w.toNat = b₁.toNat + 256 * b₂.toNat := by
  have h₁ := b₁.toNat_lt
  have h₂ := b₂.toNat_lt
  have hw : (UInt16.ofNat (b₁.toNat + 256 * b₂.toNat)).toNat = b₁.toNat + 256 * b₂.toNat :=
    UInt16.toNat_ofNat_of_lt' (by change _ < 65536; omega)
  refine ⟨UInt16.ofNat (b₁.toNat + 256 * b₂.toNat), ?_, hw⟩
  have hlow : (UInt16.ofNat (b₁.toNat + 256 * b₂.toNat)).toUInt8 = b₁ := by
    rw [← UInt8.toNat_inj, UInt16.toNat_toUInt8, hw]
    omega
  have hhigh : (UInt16.ofNat (b₁.toNat + 256 * b₂.toNat) >>> 8).toUInt8 = b₂ := by
    rw [← UInt8.toNat_inj, UInt16.toNat_toUInt8, UInt16.toNat_shiftRight, hw, Nat.shiftRight_eq_div_pow]
    have h8 : (8 : UInt16).toNat % 16 = 8 := rfl
    rw [h8]
    omega
  rw [word, hlow, hhigh]

/-- Two bytes make up the word that they come from. -/
theorem word_join (w : UInt16) : w.toUInt8.toUInt16 ||| ((w >>> 8).toUInt8.toUInt16 <<< 8) = w := by
  have hlow : w.toNat % 256 < 2 ^ 8 := Nat.mod_lt _ (by decide)
  have hw := w.toNat_lt
  apply UInt16.toNat_inj.mp
  simp only [UInt16.toNat_or, UInt16.toNat_shiftLeft, UInt8.toNat_toUInt16, UInt16.toNat_toUInt8,
    UInt16.toNat_shiftRight, UInt16.reduceToNat, Nat.reduceMod, Nat.shiftRight_eq_div_pow, Nat.shiftLeft_eq]
  rw [Nat.mod_eq_of_lt (by omega : w.toNat / 2 ^ 8 % 2 ^ 8 * 2 ^ 8 < 2 ^ 16), Nat.or_comm, Nat.mul_comm _ (2 ^ 8),
    ← Nat.two_pow_add_eq_or_of_lt hlow]
  omega

theorem long_join (w : UInt32) : w.toUInt16.toUInt32 ||| ((w >>> 16).toUInt16.toUInt32 <<< 16) = w := by
  have hlow : w.toNat % 65536 < 2 ^ 16 := Nat.mod_lt _ (by decide)
  have hw := w.toNat_lt
  apply UInt32.toNat_inj.mp
  simp only [UInt32.toNat_or, UInt32.toNat_shiftLeft, UInt16.toNat_toUInt32, UInt32.toNat_toUInt16,
    UInt32.toNat_shiftRight, UInt32.reduceToNat, Nat.reduceMod, Nat.shiftRight_eq_div_pow, Nat.shiftLeft_eq]
  rw [Nat.mod_eq_of_lt (by omega : w.toNat / 2 ^ 16 % 2 ^ 16 * 2 ^ 16 < 2 ^ 32), Nat.or_comm,
    Nat.mul_comm _ (2 ^ 16), ← Nat.two_pow_add_eq_or_of_lt hlow]
  omega

/-- Four bytes make up a double word as its two words do. -/
theorem long_of_bytes (a b c d : UInt8) :
    a.toUInt32 ||| (b.toUInt32 <<< 8) ||| (c.toUInt32 <<< 16) ||| (d.toUInt32 <<< 24) =
      (a.toUInt16 ||| (b.toUInt16 <<< 8)).toUInt32 ||| ((c.toUInt16 ||| (d.toUInt16 <<< 8)).toUInt32 <<< 16) := by
  have hshift {n i k : Nat} (h : n < 2 ^ i) : n <<< k < 2 ^ (i + k) := by
    rw [Nat.shiftLeft_eq, Nat.pow_add]
    exact Nat.mul_lt_mul_of_pos_right h (Nat.two_pow_pos k)
  have hb := hshift (k := 8) b.toNat_lt
  have hc := hshift (k := 16) c.toNat_lt
  have hd := hshift (k := 8) d.toNat_lt
  have hd' := hshift (k := 24) d.toNat_lt
  have hcd : c.toNat ||| d.toNat <<< 8 < 2 ^ 16 := Nat.or_lt_two_pow (Nat.lt_trans c.toNat_lt (by decide)) hd
  have hcd' := hshift (k := 16) hcd
  apply UInt32.toNat_inj.mp
  simp only [UInt32.toNat_or, UInt32.toNat_shiftLeft, UInt16.toNat_toUInt32, UInt16.toNat_or,
    UInt16.toNat_shiftLeft, UInt8.toNat_toUInt32, UInt8.toNat_toUInt16, UInt32.reduceToNat,
    UInt16.reduceToNat, Nat.reduceMod]
  rw [Nat.mod_eq_of_lt (Nat.lt_trans hb (by decide)), Nat.mod_eq_of_lt (Nat.lt_trans hc (by decide)),
    Nat.mod_eq_of_lt hd', Nat.mod_eq_of_lt hb, Nat.mod_eq_of_lt hd, Nat.mod_eq_of_lt hcd',
    Nat.shiftLeft_or_distrib, ← Nat.shiftLeft_add, Nat.or_assoc, Nat.or_assoc]

theorem Holds.le16 {w : UInt16} (h : Holds b i (word w)) : le16? b i = some w := by
  simp only [le16?, h.head, h.tail.head, bind, Option.bind, pure]
  rw [word_join]

theorem Holds.le32 {w : UInt32} (h : Holds b i (long w)) : le32? b i = some w := by
  have hlow : le16? b i = some w.toUInt16 := h.left.le16
  have hhigh : le16? b (i + 2) = some (w >>> 16).toUInt16 := h.right.le16
  simp only [le32?, hlow, hhigh, bind, Option.bind, pure]
  rw [long_join]

end Adventure.Bytes
