import Adventure.Bytes.Basic

/-! What can be wrong with a compressed resource. -/

namespace Adventure

/-- The two ways in which a deflate stream fails. -/
inductive DeflateFault where
  | incomplete | corrupt
  deriving DecidableEq, Repr

inductive CodecError where
  | noHeader (available : Nat)
  | truncated (offset : Nat)
  | checksum (expected actual : UInt16)
  | reference (distance produced : Nat)
  | tooLong (declared : Nat)
  | declaredSize (declared input limit : Nat)
  | deflate (fault : DeflateFault)
  deriving DecidableEq, Repr

namespace CodecError

/-- Upper-case hexadecimal digits without leading zeros. -/
def hexNumber (n : Nat) : String := String.ofList ((Nat.toDigits 16 n).map Char.toUpper)

def message : CodecError → String
  | .noHeader n => s!"Compressed data too short ({n} bytes)"
  | .truncated at_ => s!"Compressed data truncated at offset {at_}"
  | .checksum e a => s!"Invalid checksum, expected 0x{hexNumber e.toNat} got 0x{hexNumber a.toNat}"
  | .reference d n => s!"Back reference {d} before start of output ({n} bytes)"
  | .tooLong n => s!"Decoded data exceeds declared size {n}"
  | .declaredSize d n l => s!"Declared size {d} cannot be produced from {n} bytes (limit {l})"
  | .deflate .incomplete => "zlib error: incomplete deflate stream"
  | .deflate .corrupt => "zlib error: corrupt deflate stream"

end CodecError

/-- The largest resource that is decoded. -/
def maxDecodedSize : Nat := 16 * 1024 * 1024

/-- The decoded size that a compressed resource declares in front. -/
def declaredSize? (src : ByteArray) : Option Nat := (Bytes.le32? src 0).map UInt32.toNat

end Adventure
