import Adventure.Text.Comments
import Adventure.Word

/-! Numbers in scene and dialogue files. A number may be decimal, octal after a
leading zero, or hexadecimal after `0x`; what follows its last digit is not looked at. -/

namespace Adventure.Text

/-- Characters that separate words. -/
def isBlank (c : Char) : Bool := c == ' ' || c == '\t' || c == '\r' || c == '\n' || c == '\x60'

/-- The value of a digit below `base`. -/
def digit? (base : Nat) (c : Char) : Option Nat :=
  let v :=
    if '0' ≤ c ∧ c ≤ '9' then some (c.toNat - 48)
    else if 'a' ≤ c ∧ c ≤ 'z' then some (c.toNat - 87)
    else if 'A' ≤ c ∧ c ≤ 'Z' then some (c.toNat - 55)
    else none
  v.filter (· < base)

/-- The value of the leading digits, on top of `value`, and how many there are. -/
def readDigits (base value count : Nat) : List Char → Nat × Nat
  | [] => (value, count)
  | c :: r =>
    match digit? base c with
    | some d => readDigits base (value * base + d) (count + 1) r
    | none => (value, count)

/-- A sign, if there is one: whether it is a minus, and the rest. -/
def readSign : List Char → Bool × List Char
  | '-' :: r => (true, r)
  | '+' :: r => (false, r)
  | r => (false, r)

/-- The base that the prefix of an unsigned number announces, and its digits. -/
def readBase : List Char → Nat × List Char
  | '0' :: x :: d :: r =>
    if (x = 'x' ∨ x = 'X') ∧ (digit? 16 d).isSome then (16, d :: r) else (8, '0' :: x :: d :: r)
  | '0' :: r => (8, '0' :: r)
  | r => (10, r)

def maxLong : Nat := 9223372036854775807

/-- The number at the start of the text, after blanks, and how many characters it
takes with them. It is `none` without a digit and beyond 63 bits. -/
def readLong (s : List Char) : Option (Int × Nat) :=
  let s₁ := s.dropWhile isBlank
  let (negative, s₂) := readSign s₁
  let (base, s₃) := readBase s₂
  let (value, count) := readDigits base 0 0 s₃
  if count = 0 ∨ maxLong < value then none
  else some (if negative then -(value : Int) else value, s.length - s₃.length + count)

/-- The longest decimal prefix, zero when there is none or when it does not fit 32 bits. -/
def leadingDecimal (s : List Char) : Int :=
  let (negative, digits) := readSign (s.dropWhile isBlank)
  let (value, _) := readDigits 10 0 0 digits
  let v : Int := if negative then -(value : Int) else value
  if Word.fits v then v else 0

/-- The number of 32 bits at the start of the text. -/
def readInt? (s : List Char) : Option Int := ((readLong s).map (·.1)).filter Word.fits

end Adventure.Text
