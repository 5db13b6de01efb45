import Adventure.Proofs.Bytes.Fields
import Mathlib.Data.Option.NAry

/-! Words of a buffer: one that is overwritten, those of a part of it and those of two buffers that are
combined. -/

namespace Adventure.Bytes

/-- The word of two bytes, the low one first. -/
def join (low high : UInt8) : UInt16 := low.toUInt16 ||| (high.toUInt16 <<< 8)

/-- Overwrites the two bytes at `i` with a word. -/
def putWord (b : ByteArray) (i : Nat) (w : UInt16) : ByteArray := put (put b i w.toUInt8) (i + 1) (w >>> 8).toUInt8

/-- The exclusive or of two buffers, as far as both of them go. -/
def xor (a b : ByteArray) : ByteArray := ofList (List.zipWith (· ^^^ ·) (list a) (list b))

variable {a b : ByteArray} {i j : Nat} {w : UInt16}

theorem le16?_eq (b : ByteArray) (i : Nat) : le16? b i = Option.map₂ join (list b)[i]? (list b)[i + 1]? := by
  rw [getElem?_list, getElem?_list, le16?]
  cases b[i]? <;> cases b[i + 1]? <;> rfl

theorem join_xor (low high low' high' : UInt8) :
    join (low ^^^ low') (high ^^^ high') = join low high ^^^ join low' high' := by
  apply UInt16.toBitVec_inj.mp
  ext k hk
  by_cases h : k < 8
  · simp [join, h]
  · simp [join, h, BitVec.getLsbD_of_ge _ k (Nat.not_lt.mp h)]

/-- Buffers are combined word by word. -/
theorem le16?_xor (a b : ByteArray) (i : Nat) :
    le16? (xor a b) i = Option.map₂ (· ^^^ ·) (le16? a i) (le16? b i) := by
  simp only [le16?_eq, xor, list_ofList, List.getElem?_zipWith]
  cases (list a)[i]? <;> cases (list a)[i + 1]? <;> cases (list b)[i]? <;> cases (list b)[i + 1]? <;>
    simp [join_xor]

theorem le16?_extract {p n : Nat} (h : i + 2 ≤ n) : le16? (b.extract p (p + n)) i = le16? b (p + i) := by
  have hlist : list (b.extract p (p + n)) = ((list b).drop p).take n := by
    simp [list, List.extract_eq_take_drop]
  simp only [le16?_eq, hlist]
  rw [List.getElem?_take_of_lt (by omega), List.getElem?_take_of_lt (by omega), List.getElem?_drop, List.getElem?_drop,
    Nat.add_assoc]

theorem le_size_of_le16? (h : le16? b i = some w) : i + 2 ≤ b.size := by
  rw [le16?_eq, Option.map₂_eq_some_iff] at h
  obtain ⟨_, _, _, hhigh, _⟩ := h
  obtain ⟨hlt, _⟩ := List.getElem?_eq_some_iff.mp hhigh
  rw [length_list] at hlt
  omega

theorem size_putWord (b : ByteArray) (i : Nat) (w : UInt16) : (putWord b i w).size = b.size := by
  rw [putWord, size_put, size_put]

theorem list_putWord (b : ByteArray) (i : Nat) (w : UInt16) :
    list (putWord b i w) = ((list b).set i w.toUInt8).set (i + 1) (w >>> 8).toUInt8 := by
  rw [putWord, list_put, list_put]

theorem le16?_putWord_self (h : i + 2 ≤ b.size) : le16? (putWord b i w) i = some w := by
  rw [← length_list] at h
  have hlow : ((list b).set i w.toUInt8)[i]? = some w.toUInt8 := List.getElem?_set_self (by omega)
  have hhigh : (list (putWord b i w))[i + 1]? = some (w >>> 8).toUInt8 := by
    rw [list_putWord]
    exact List.getElem?_set_self (by rw [List.length_set]; omega)
  rw [le16?_eq, hhigh, list_putWord, List.getElem?_set_ne (by omega), hlow]
  exact congrArg some (word_join w)

/-- The other words stay. -/
theorem le16?_putWord_of_ne (h : j + 2 ≤ i ∨ i + 2 ≤ j) : le16? (putWord b i w) j = le16? b j := by
  have hother : ∀ k, k < i ∨ i + 2 ≤ k → (list (putWord b i w))[k]? = (list b)[k]? := fun k hk => by
    rw [list_putWord, List.getElem?_set_ne (by omega), List.getElem?_set_ne (by omega)]
  rw [le16?_eq, le16?_eq, hother j (by omega), hother (j + 1) (by omega)]

theorem le32?_putWord (h : j + 4 ≤ i) : le32? (putWord b i w) j = le32? b j := by
  rw [le32?, le32?, le16?_putWord_of_ne (by omega), le16?_putWord_of_ne (by omega)]

end Adventure.Bytes
