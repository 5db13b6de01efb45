/-! Byte buffers: little-endian fields at an offset, guarded writes, and the
hexadecimal text of a buffer. Every access is total; a field that does not fit
into the buffer is `none` and a write outside of it changes nothing. -/

namespace Adventure.Bytes

instance decEq : DecidableEq ByteArray := fun a b =>
  if h : a.data = b.data then .isTrue (ByteArray.ext h) else .isFalse fun e => h (congrArg ByteArray.data e)

/-- The word of two bytes at `i`, low byte first. -/
def le16? (b : ByteArray) (i : Nat) : Option UInt16 := do
  let lo ← b[i]?
  let hi ← b[i + 1]?
  pure (lo.toUInt16 ||| (hi.toUInt16 <<< 8))

/-- The signed word of two bytes at `i`. -/
def le16s? (b : ByteArray) (i : Nat) : Option Int16 := (le16? b i).map UInt16.toInt16

/-- The word of four bytes at `i`, low byte first. -/
def le32? (b : ByteArray) (i : Nat) : Option UInt32 := do
  let lo ← le16? b i
  let hi ← le16? b (i + 2)
  pure (lo.toUInt32 ||| (hi.toUInt32 <<< 16))

/-- The byte at `i`, or zero outside of the buffer. -/
@[inline] def at0 (b : ByteArray) (i : Nat) : UInt8 := if h : i < b.size then b[i] else 0

/-- Overwrites the byte at `i`; outside of the buffer nothing happens. -/
@[inline] def put (b : ByteArray) (i : Nat) (v : UInt8) : ByteArray :=
  if h : i < b.size then b.set i v else b

theorem size_put (b : ByteArray) (i : Nat) (v : UInt8) : (put b i v).size = b.size := by
  unfold put
  split
  · exact Array.size_set _
  · rfl

/-- Appends `n` copies of `v`. -/
def pushN (b : ByteArray) (v : UInt8) : Nat → ByteArray
  | 0 => b
  | n + 1 => pushN (b.push v) v n

/-- A buffer of `n` bytes `v`. -/
def replicate (n : Nat) (v : UInt8) : ByteArray := pushN (ByteArray.emptyWithCapacity n) v n

/-- Cuts or fills with zeros to `n` bytes. -/
def resize (b : ByteArray) (n : Nat) : ByteArray :=
  if n ≤ b.size then b.extract 0 n else pushN b 0 (n - b.size)

/-- The bytes `f 0`, `f 1`, … `f (n - 1)`. -/
def build (n : Nat) (f : Nat → UInt8) : ByteArray := go n (ByteArray.emptyWithCapacity n)
where
  go : Nat → ByteArray → ByteArray
    | 0, acc => acc
    | k + 1, acc => go k (acc.push (f (n - (k + 1))))

def ofList (l : List UInt8) : ByteArray := l.foldl ByteArray.push ByteArray.empty

def push16 (b : ByteArray) (v : UInt16) : ByteArray := (b.push v.toUInt8).push (v >>> 8).toUInt8

def push32 (b : ByteArray) (v : UInt32) : ByteArray :=
  push16 (push16 b v.toUInt16) (v >>> 16).toUInt16

def hexDigit (n : UInt8) : Char :=
  if n < 10 then Char.ofNat (48 + n.toNat) else Char.ofNat (87 + n.toNat)

/-- Two lower-case hexadecimal digits for each byte. -/
def hex (b : ByteArray) : String :=
  b.foldl (fun s x => (s.push (hexDigit (x >>> 4))).push (hexDigit (x &&& 15))) ""

end Adventure.Bytes
