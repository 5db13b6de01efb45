import Adventure.Json.Canonical

/-! JSON text for readers: members sorted by name, one item on a line. -/

namespace Adventure.Json

/-- A new line that is indented by two blanks for each level. -/
def newLine (level : Nat) : List Char := '\n' :: List.replicate (2 * level) ' '

mutual

/-- The text of a value on the given level. -/
def lines (level : Nat) : Json → List Char
  | .arr [] => ['[', ']']
  | .obj [] => ['\x7b', '\x7d']
  | .arr items => '[' :: itemLines (level + 1) items ++ newLine level ++ [']']
  | .obj members => '\x7b' :: memberLines (level + 1) members ++ newLine level ++ ['\x7d']
  | v => v.write

def itemLines (level : Nat) : List Json → List Char
  | [] => []
  | [v] => newLine level ++ lines level v
  | v :: w :: r => newLine level ++ lines level v ++ ',' :: itemLines level (w :: r)

def memberLines (level : Nat) : List (String × Json) → List Char
  | [] => []
  | [(k, v)] => newLine level ++ quote k ++ ':' :: ' ' :: lines level v
  | (k, v) :: m :: r =>
    newLine level ++ quote k ++ ':' :: ' ' :: lines level v ++ ',' :: memberLines level (m :: r)

end

def pretty (v : Json) : String := String.ofList (lines 0 v.sorted)

end Adventure.Json
