import Adventure.Bytes.Basic

/-! Base 64: three bytes as four characters, filled up with equals signs. -/

namespace Adventure.Text.Base64

def digits : Array Char :=
  "ABCDEFGHIJKLMNOPQRSTUVWXYZabcdefghijklmnopqrstuvwxyz0123456789+/".toList.toArray

def digit (n : Nat) : Char := digits[n % 64]?.getD '='

/-- The four characters of a group of bytes, of which `count` are there. -/
def group (count : Nat) (a b c : UInt8) : List Char :=
  let n := a.toNat * 65536 + b.toNat * 256 + c.toNat
  [digit (n / 262144), digit (n / 4096), if 1 < count then digit (n / 64) else '=',
   if 2 < count then digit n else '=']

/-- Appends the text of the bytes from place `i` on. -/
def encodeFrom (b : ByteArray) (i : Nat) (out : String) : String :=
  if i < b.size then
    encodeFrom b (i + 3)
      ((group (b.size - i) (Bytes.at0 b i) (Bytes.at0 b (i + 1)) (Bytes.at0 b (i + 2))).foldl String.push out)
  else out
termination_by b.size - i

def encode (b : ByteArray) : String := encodeFrom b 0 ""

end Adventure.Text.Base64
