import Adventure.Codec.Error

/-! Dictionary compression in blocks. A resource starts with its decoded size and
its length in units of 16 bytes. Blocks stand every 4096 bytes, each with a
checksum word in front of its tokens; a token is a byte, a copy of earlier output
or a mark. Words of flag bits stand between the token bytes, each where the last
bit of the word before was used up. -/

namespace Adventure.Lzss

/-- One step of the decoder. -/
inductive Token where
  | literal (b : UInt8)
  | copy (distance size : Nat)
  /-- Stands for nothing. -/
  | idle
  | endBlock
  | endData
  deriving DecidableEq, Repr

/-- The reading position of a block and the flag bits that are left of the last word. -/
structure Source where
  pos : Nat
  bits : UInt16
  left : Nat

namespace Source

/-- Takes the next word of flag bits, zero beyond the data. -/
def refill (src : ByteArray) (pos : Nat) : Source := ⟨pos + 2, (Bytes.le16? src pos).getD 0, 16⟩

def bit (src : ByteArray) (s : Source) : Bool × Source :=
  (s.bits &&& 1 = 1, if s.left ≤ 1 then refill src s.pos else ⟨s.pos, s.bits >>> 1, s.left - 1⟩)

def byte (src : ByteArray) (s : Source) : Except CodecError (UInt8 × Source) :=
  match src[s.pos]? with
  | some b => .ok (b, { s with pos := s.pos + 1 })
  | none => .error (.truncated s.pos)

def word (src : ByteArray) (s : Source) : Except CodecError (UInt16 × Source) :=
  match Bytes.le16? src s.pos with
  | some w => .ok (w, { s with pos := s.pos + 2 })
  | none => .error (.truncated s.pos)

theorem le_pos_bit (src : ByteArray) (s : Source) : s.pos ≤ (s.bit src).2.pos := by
  unfold bit refill
  split <;> simp

theorem pos_byte {src : ByteArray} {s : Source} {b : UInt8} {t : Source}
    (h : s.byte src = .ok (b, t)) : t.pos = s.pos + 1 ∧ s.pos < src.size := by
  unfold byte at h
  split at h
  · rename_i hb
    simp only [Except.ok.injEq, Prod.mk.injEq] at h
    have hlt : s.pos < src.size := by
      by_cases hs : s.pos < src.size
      · exact hs
      · rw [getElem?_neg src s.pos hs] at hb
        simp at hb
    exact ⟨by rw [← h.2], hlt⟩
  · simp at h

theorem pos_word {src : ByteArray} {s : Source} {w : UInt16} {t : Source}
    (h : s.word src = .ok (w, t)) : t.pos = s.pos + 2 ∧ s.pos < src.size := by
  unfold word at h
  split at h
  · rename_i hw
    simp only [Except.ok.injEq, Prod.mk.injEq] at h
    have hlt : s.pos < src.size := by
      by_cases hs : s.pos < src.size
      · exact hs
      · simp only [Bytes.le16?, getElem?_neg src s.pos hs] at hw
        simp at hw
    exact ⟨by rw [← h.2], hlt⟩
  · simp at h

end Source

/-- The distance in the code word of a long copy: 8192 less a number of 13 bits. -/
def longDistance (code : UInt16) : Nat :=
  0x2000 - (((code >>> 3) &&& 0x1F00) ||| (code &&& 0xFF)).toNat

/-- What a length byte behind a long copy's code word means. -/
def ofLengthByte (distance : Nat) (n : UInt8) : Token :=
  if n = 0 then .endData else if n = 1 then .idle else if n = 2 then .endBlock
  else .copy distance (n.toNat + 1)

/-- A long copy: a code word and, when its size field is zero, a length byte. -/
def readLong (src : ByteArray) (s : Source) : Except CodecError (Token × Source) :=
  match s.word src with
  | .error e => .error e
  | .ok (code, s) =>
    if code &&& 0x700 = 0 then
      match s.byte src with
      | .error e => .error e
      | .ok (n, s) => .ok (ofLengthByte (longDistance code) n, s)
    else .ok (.copy (longDistance code) (((code >>> 8) &&& 7).toNat + 2), s)

/-- A short copy: two bits of size and a byte of distance. -/
def readShort (src : ByteArray) (s : Source) : Except CodecError (Token × Source) :=
  let (hi, s) := s.bit src
  let (lo, s) := s.bit src
  match s.byte src with
  | .error e => .error e
  | .ok (d, s) => .ok (.copy (256 - d.toNat) (2 * hi.toNat + lo.toNat + 2), s)

def readLiteral (src : ByteArray) (s : Source) : Except CodecError (Token × Source) :=
  match s.byte src with
  | .error e => .error e
  | .ok (b, s) => .ok (.literal b, s)

/-- The next token. A set bit announces a byte, two clear bits a short copy. -/
def readToken (src : ByteArray) (s : Source) : Except CodecError (Token × Source) :=
  let (first, s) := s.bit src
  if first then readLiteral src s
  else
    let (second, s) := s.bit src
    if second then readLong src s else readShort src s

theorem readLong_advances {src : ByteArray} {s t : Source} {k : Token}
    (h : readLong src s = .ok (k, t)) : s.pos < t.pos ∧ s.pos < src.size := by
  unfold readLong at h
  split at h
  · simp at h
  · rename_i w s₁ hw
    have := Source.pos_word hw
    split at h
    · split at h
      · simp at h
      · rename_i n s₂ hb
        have := Source.pos_byte hb
        simp only [Except.ok.injEq, Prod.mk.injEq] at h
        rw [← h.2]
        omega
    · simp only [Except.ok.injEq, Prod.mk.injEq] at h
      rw [← h.2]
      omega

theorem readShort_advances {src : ByteArray} {s t : Source} {k : Token}
    (h : readShort src s = .ok (k, t)) : s.pos < t.pos ∧ s.pos < src.size := by
  unfold readShort at h
  have h₁ := Source.le_pos_bit src s
  have h₂ := Source.le_pos_bit src (s.bit src).2
  simp only at h
  split at h
  · simp at h
  · rename_i n s₂ hb
    have := Source.pos_byte hb
    simp only [Except.ok.injEq, Prod.mk.injEq] at h
    rw [← h.2]
    omega

theorem readLiteral_advances {src : ByteArray} {s t : Source} {k : Token}
    (h : readLiteral src s = .ok (k, t)) : s.pos < t.pos ∧ s.pos < src.size := by
  unfold readLiteral at h
  split at h
  · simp at h
  · rename_i n s₂ hb
    have := Source.pos_byte hb
    simp only [Except.ok.injEq, Prod.mk.injEq] at h
    rw [← h.2]
    omega

/-- A token takes at least one byte of the data. -/
theorem readToken_advances {src : ByteArray} {s t : Source} {k : Token}
    (h : readToken src s = .ok (k, t)) : s.pos < t.pos ∧ s.pos < src.size := by
  unfold readToken at h
  have h₁ := Source.le_pos_bit src s
  have h₂ := Source.le_pos_bit src (s.bit src).2
  simp only at h
  split at h
  · have := readLiteral_advances h
    omega
  · split at h
    · have := readLong_advances h
      omega
    · have := readShort_advances h
      omega

/-- Appends `size` bytes, each the one `distance` before it. -/
def copyBack (distance : Nat) : Nat → ByteArray → ByteArray
  | 0, out => out
  | size + 1, out => copyBack distance size (out.push (Bytes.at0 out (out.size - distance)))

/-- Decodes the tokens of one block onto `out`. The flag says that the data ends here. -/
def decodeTokens (src : ByteArray) (limit : Nat) (s : Source) (out : ByteArray) :
    Except CodecError (ByteArray × Bool) :=
  if limit < out.size then .error (.tooLong limit)
  else
    match h : readToken src s with
    | .error e => .error e
    | .ok (.literal b, t) =>
      have := readToken_advances h
      decodeTokens src limit t (out.push b)
    | .ok (.idle, t) =>
      have := readToken_advances h
      decodeTokens src limit t out
    | .ok (.copy distance size, t) =>
      have := readToken_advances h
      if out.size < distance then .error (.reference distance out.size)
      else decodeTokens src limit t (copyBack distance size out)
    | .ok (.endBlock, _) => .ok (out, false)
    | .ok (.endData, _) => .ok (out, true)
termination_by src.size - s.pos

/-- One step of the checksum: a rotation to the right and an exclusive or. -/
def checksumStep (sum w : UInt16) : UInt16 := (((sum &&& 1) <<< 15) ||| (sum >>> 1)) ^^^ w

/-- The checksum of `count` words from `pos` on, on top of `sum`. -/
def checksumFrom (data : ByteArray) (sum : UInt16) (pos : Nat) : Nat → Option UInt16
  | 0 => some sum
  | count + 1 =>
    match Bytes.le16? data pos with
    | some w => checksumFrom data (checksumStep sum w) (pos + 2) count
    | none => none

def checksum? (data : ByteArray) (pos count : Nat) : Option UInt16 := checksumFrom data 0 pos count

/-- The checksum of the block at `pos` is right. -/
def checkBlock (src : ByteArray) (pos units : Nat) : Except CodecError Unit :=
  match Bytes.le16? src pos, checksum? src (pos + 2) (units * 8 - 1) with
  | some expected, some actual =>
    if expected = actual then .ok () else .error (.checksum expected actual)
  | _, _ => .error (.truncated pos)

def blockSize : Nat := 0x1000

/-- A block holds at most 256 units. -/
def blockUnits : Nat := 256

/-- Decodes the blocks from `pos` on onto `out`. -/
def decodeBlocks (src : ByteArray) (limit units pos : Nat) (out : ByteArray) :
    Except CodecError ByteArray :=
  if units = 0 then .ok out
  else
    match checkBlock src pos (min units blockUnits) with
    | .error e => .error e
    | .ok () =>
      match decodeTokens src limit (Source.refill src (pos + 2)) out with
      | .error e => .error e
      | .ok (out, true) => .ok out
      | .ok (out, false) =>
        decodeBlocks src limit (units - min units blockUnits) (pos + blockSize) out
termination_by units
decreasing_by simp only [blockUnits]; omega

/-- The most bytes that one byte of input can stand for, rounded up. -/
def maxRatio : Nat := 80

/-- Cuts nothing and fills up with zeros: the output must not be longer than declared. -/
def finish (declared : Nat) (out : ByteArray) : Except CodecError ByteArray :=
  if declared < out.size then .error (.tooLong declared)
  else .ok (Bytes.pushN out 0 (declared - out.size))

def decode (src : ByteArray) : Except CodecError ByteArray :=
  match Bytes.le32? src 0, Bytes.le32? src 4 with
  | some declared, some units =>
    let declared := declared.toNat
    let limit := min (src.size * maxRatio) maxDecodedSize
    if limit < declared then .error (.declaredSize declared src.size limit)
    else
      match decodeBlocks src declared units.toNat 8 ByteArray.empty with
      | .error e => .error e
      | .ok out => finish declared out
  | _, _ => .error (.noHeader src.size)

end Adventure.Lzss
