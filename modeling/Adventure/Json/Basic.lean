/-! JSON values and their compact text. -/

namespace Adventure

/-- A JSON value. An object keeps the order of its members. -/
inductive Json where
  | null
  | bool (b : Bool)
  | int (n : Int)
  /-- A number that is no integer literal, kept as it was written. -/
  | decimal (text : String)
  | str (s : String)
  | arr (items : List Json)
  | obj (members : List (String × Json))
  deriving Inhabited

namespace Json

def nibble (n : Nat) : Char := if n < 10 then Char.ofNat (48 + n) else Char.ofNat (87 + n)

/-- A character inside of a string: quotes, backslashes and control characters are escaped. -/
def escapeChar (c : Char) : List Char :=
  if c = '"' then ['\\', '"']
  else if c = '\\' then ['\\', '\\']
  else if c = '\x08' then ['\\', 'b']
  else if c = '\x0c' then ['\\', 'f']
  else if c = '\n' then ['\\', 'n']
  else if c = '\r' then ['\\', 'r']
  else if c = '\t' then ['\\', 't']
  else if c.toNat < 32 then ['\\', 'u', '0', '0', nibble (c.toNat / 16), nibble (c.toNat % 16)]
  else [c]

def quote (s : String) : List Char := '"' :: s.toList.flatMap escapeChar ++ ['"']

mutual

/-- The text without any blanks, members in their order. -/
def write : Json → List Char
  | .null => "null".toList
  | .bool b => (if b then "true" else "false").toList
  | .int n => (toString n).toList
  | .decimal t => t.toList
  | .str s => quote s
  | .arr items => '[' :: writeItems items ++ [']']
  | .obj members => '\x7b' :: writeMembers members ++ ['\x7d']

def writeItems : List Json → List Char
  | [] => []
  | [v] => write v
  | v :: w :: r => write v ++ ',' :: writeItems (w :: r)

def writeMembers : List (String × Json) → List Char
  | [] => []
  | [(k, v)] => quote k ++ ':' :: write v
  | (k, v) :: m :: r => quote k ++ ':' :: write v ++ ',' :: writeMembers (m :: r)

end

/-- The compact text. -/
def compact (v : Json) : String := String.ofList v.write

/-- The members of the given names. An array gives them in the order of the names, as far
as it goes; an object gives each of them at most once, and others are skipped. -/
def fields? (names : List String) : Json → Option (List (String × Json))
  | .obj members =>
    let known := members.filter fun m => names.contains m.1
    if (known.map (·.1)).eraseDups.length < known.length then none else some known
  | .arr items => if names.length < items.length then none else some (names.zip items)
  | _ => none

/-- The value of the first member with the given name. -/
def member? (members : List (String × Json)) (k : String) : Option Json :=
  (members.find? fun m => m.1 == k).map (·.2)

end Json

end Adventure
