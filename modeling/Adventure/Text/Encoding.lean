import Adventure.Bytes.Basic

/-! Text from bytes. Scene and dialogue files hold one Latin-1 byte per
character; names in binary files are UTF-8 up to the first zero byte, and each
maximal part that is no UTF-8 becomes one replacement character. -/

namespace Adventure.Text

/-- One character per byte. -/
def latin1 (b : List UInt8) : List Char := b.map fun x => Char.ofNat x.toNat

namespace Utf8

/-- What a lead byte announces: the number of continuation bytes, the range of
the first one, and the bits that the lead byte gives itself. -/
structure Lead where
  more : Nat
  lo : UInt8
  hi : UInt8
  bits : Nat

def lead? (b : UInt8) : Option Lead :=
  let n := b.toNat
  if n < 0x80 then some ⟨0, 0, 0, n⟩
  else if n < 0xC2 then none
  else if n < 0xE0 then some ⟨1, 0x80, 0xBF, n % 32⟩
  else if n = 0xE0 then some ⟨2, 0xA0, 0xBF, 0⟩
  else if n = 0xED then some ⟨2, 0x80, 0x9F, 13⟩
  else if n < 0xF0 then some ⟨2, 0x80, 0xBF, n % 16⟩
  else if n = 0xF0 then some ⟨3, 0x90, 0xBF, 0⟩
  else if n < 0xF4 then some ⟨3, 0x80, 0xBF, n % 8⟩
  else if n = 0xF4 then some ⟨3, 0x80, 0x8F, 4⟩
  else none

/-- Reads `more` continuation bytes, the first of them in the given range. The
code point is `none` when one is missing; the bytes before it are consumed. -/
def tail (more : Nat) (lo hi : UInt8) (acc : Nat) : List UInt8 → Option Nat × List UInt8
  | [] => (if more = 0 then some acc else none, [])
  | b :: l =>
    match more with
    | 0 => (some acc, b :: l)
    | n + 1 =>
      if lo ≤ b ∧ b ≤ hi then tail n 0x80 0xBF (acc * 64 + b.toNat % 64) l else (none, b :: l)

theorem length_tail_le (more : Nat) (lo hi : UInt8) (acc : Nat) (l : List UInt8) :
    (tail more lo hi acc l).2.length ≤ l.length := by
  induction l generalizing more lo hi acc with
  | nil => simp [tail]
  | cons b l ih =>
    unfold tail
    split
    · simp
    · split
      · exact Nat.le_succ_of_le (ih _ _ _ _)
      · simp

/-- Decodes UTF-8 with a replacement character for each maximal invalid part. -/
def decode : List UInt8 → List Char
  | [] => []
  | b :: l =>
    match lead? b with
    | none => '\uFFFD' :: decode l
    | some s =>
      match h : tail s.more s.lo s.hi s.bits l with
      | (some n, r) =>
        have : r.length ≤ l.length := by have := length_tail_le s.more s.lo s.hi s.bits l; rw [h] at this; exact this
        Char.ofNat n :: decode r
      | (none, r) =>
        have : r.length ≤ l.length := by have := length_tail_le s.more s.lo s.hi s.bits l; rw [h] at this; exact this
        '\uFFFD' :: decode r
termination_by l => l.length

end Utf8

/-- The name stored in a fixed or counted field: what stands before the first zero byte. -/
def ofField (b : ByteArray) : String :=
  String.ofList (Utf8.decode (b.toList.takeWhile (· ≠ 0)))

end Adventure.Text
