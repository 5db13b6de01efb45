import Adventure.Json.Basic

/-! Reading JSON text. One value is read with blanks around it, and nothing may follow.
What is not wanted of it is skipped. -/

namespace Adventure.Json

def skipBlanks (s : List Char) : List Char :=
  s.dropWhile fun c => c == ' ' || c == '\t' || c == '\n' || c == '\r'

def hexValue? (c : Char) : Option Nat :=
  if '0' ≤ c ∧ c ≤ '9' then some (c.toNat - 48)
  else if 'a' ≤ c ∧ c ≤ 'f' then some (c.toNat - 87)
  else if 'A' ≤ c ∧ c ≤ 'F' then some (c.toNat - 55)
  else none

/-- Four hexadecimal digits. -/
def readUnit : List Char → Option (Nat × List Char)
  | a :: b :: c :: d :: r => do
    pure ((((← hexValue? a) * 16 + (← hexValue? b)) * 16 + (← hexValue? c)) * 16 + (← hexValue? d), r)
  | _ => none

/-- The character of an escape, behind its backslash. Characters beyond the basic
plane come as two halves; a half without the other one is no character. -/
def readEscape : List Char → Option (Option Char × List Char)
  | '"' :: r => some (some '"', r)
  | '\\' :: r => some (some '\\', r)
  | '/' :: r => some (some '/', r)
  | 'b' :: r => some (some '\x08', r)
  | 'f' :: r => some (some '\x0c', r)
  | 'n' :: r => some (some '\n', r)
  | 'r' :: r => some (some '\r', r)
  | 't' :: r => some (some '\t', r)
  | 'u' :: r => do
    let (n, r) ← readUnit r
    if 0xDC00 ≤ n ∧ n < 0xE000 then pure (none, r)
    else if 0xD800 ≤ n ∧ n < 0xDC00 then
      match r with
      | '\\' :: 'u' :: t => do
        let (m, t) ← readUnit t
        if 0xDC00 ≤ m ∧ m < 0xE000 then
          pure (some (Char.ofNat (0x10000 + (n - 0xD800) * 0x400 + (m - 0xDC00))), t)
        else pure (none, r)
      | _ => pure (none, r)
    else pure (some (Char.ofNat n), r)
  | _ => none

/-- The rest of a string behind its opening quote. Halves of characters are left out of
strings that are `skipped`, and are not allowed in others. -/
def readString (skipped : Bool) : Nat → List Char → List Char → Option (String × List Char)
  | 0, _, _ => none
  | _ + 1, _, [] => none
  | fuel + 1, acc, c :: r =>
    if c = '"' then some (String.ofList acc.reverse, r)
    else if c = '\\' then do
      match ← readEscape r with
      | (some d, r) => readString skipped fuel (d :: acc) r
      | (none, r) => if skipped then readString skipped fuel acc r else none
    else if c.toNat < 32 then none
    else readString skipped fuel (c :: acc) r

/-- Splits off the leading decimal digits. -/
def spanDigits (s : List Char) : List Char × List Char := s.span fun c => '0' ≤ c ∧ c ≤ '9'

/-- The fraction of a number: its text and the rest. -/
def readFraction : List Char → Option (List Char × List Char)
  | '.' :: r =>
    let (d, r) := spanDigits r
    if d.isEmpty then none else some ('.' :: d, r)
  | r => some ([], r)

/-- The exponent of a number: its text and the rest. -/
def readExponent : List Char → Option (List Char × List Char)
  | e :: r =>
    if e = 'e' ∨ e = 'E' then
      let (sign, r) := match r with
        | '+' :: r => (['+'], r)
        | '-' :: r => (['-'], r)
        | r => ([], r)
      let (d, r) := spanDigits r
      if d.isEmpty then none else some (e :: sign ++ d, r)
    else some ([], e :: r)
  | [] => some ([], [])

/-- A number. An integer literal is exact; negative zero is no integer. -/
def readNumber (s : List Char) : Option (Json × List Char) := do
  let (negative, r) := match s with
    | '-' :: r => (true, r)
    | r => (false, r)
  let (whole, r) := spanDigits r
  if whole.isEmpty ∨ (whole.head? = some '0' ∧ 1 < whole.length) then none else
  let (fraction, r) ← readFraction r
  let (exponent, r) ← readExponent r
  let n := whole.foldl (fun (n : Nat) c => n * 10 + (c.toNat - 48)) 0
  if fraction.isEmpty ∧ exponent.isEmpty ∧ ¬(negative ∧ n = 0) then
    pure (.int (if negative then -(n : Int) else n), r)
  else
    pure (.decimal (String.ofList ((if negative then ['-'] else []) ++ whole ++ fraction ++ exponent)), r)

/-- The text behind a fixed word. -/
def readWord (w : List Char) (s : List Char) : Option (List Char) :=
  match w, s with
  | [], s => some s
  | c :: w, d :: s => if c = d then readWord w s else none
  | _ :: _, [] => none

/-- What is wanted of a value. -/
inductive Shape where
  /-- All of it. -/
  | whole
  /-- An array whose items have a shape. -/
  | items (s : Shape)
  /-- An object with members of these names, or an array of their values. -/
  | members (l : List (String × Shape))
  /-- Nothing; the value is skipped. -/
  | skipped

namespace Shape

def item : Shape → Nat → Shape
  | whole, _ => whole
  | items s, _ => s
  | members l, i => (l[i]?).elim skipped (·.2)
  | skipped, _ => skipped

def member : Shape → String → Shape
  | whole, _ => whole
  | items _, _ => whole
  | members l, name => (l.lookup name).getD skipped
  | skipped, _ => skipped

def isSkipped : Shape → Bool
  | skipped => true
  | _ => false

end Shape

mutual

/-- A value; the first argument bounds the number of steps. -/
def readValue : Nat → Shape → List Char → Option (Json × List Char)
  | 0, _, _ => none
  | fuel + 1, shape, s =>
    match skipBlanks s with
    | [] => none
    | '[' :: r =>
      match skipBlanks r with
      | ']' :: r => some (.arr [], r)
      | r => (readItems fuel shape 0 r).map fun (l, r) => (.arr l, r)
    | '\x7b' :: r =>
      match skipBlanks r with
      | '\x7d' :: r => some (.obj [], r)
      | r => (readMembers fuel shape r).map fun (l, r) => (.obj l, r)
    | '"' :: r => (readString shape.isSkipped (r.length + 1) [] r).map fun (t, r) => (.str t, r)
    | 'n' :: r => (readWord "ull".toList r).map fun r => (.null, r)
    | 't' :: r => (readWord "rue".toList r).map fun r => (.bool true, r)
    | 'f' :: r => (readWord "alse".toList r).map fun r => (.bool false, r)
    | r => readNumber r

/-- The items of an array from the `i`-th one up to its closing bracket. -/
def readItems : Nat → Shape → Nat → List Char → Option (List Json × List Char)
  | 0, _, _, _ => none
  | fuel + 1, shape, i, s => do
    let (v, r) ← readValue fuel (shape.item i) s
    match skipBlanks r with
    | ']' :: r => pure ([v], r)
    | ',' :: r =>
      let (l, r) ← readItems fuel shape (i + 1) r
      pure (v :: l, r)
    | _ => none

/-- The members of an object up to its closing brace. -/
def readMembers : Nat → Shape → List Char → Option (List (String × Json) × List Char)
  | 0, _, _ => none
  | fuel + 1, shape, s =>
    match skipBlanks s with
    | '"' :: r => do
      let (k, r) ← readString shape.isSkipped (r.length + 1) [] r
      match skipBlanks r with
      | ':' :: r =>
        let (v, r) ← readValue fuel (shape.member k) r
        match skipBlanks r with
        | '\x7d' :: r => pure ([(k, v)], r)
        | ',' :: r =>
          let (l, r) ← readMembers fuel shape r
          pure ((k, v) :: l, r)
        | _ => none
      | _ => none
    | _ => none

end

/-- The value that the text denotes, as far as it is wanted. -/
def parse? (shape : Shape) (s : String) : Option Json := do
  let l := s.toList
  let (v, r) ← readValue (2 * l.length + 2) shape l
  if (skipBlanks r).isEmpty then pure v else none

end Adventure.Json
