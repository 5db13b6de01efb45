/-! File and object names. The data was written for a system that does not tell
upper from lower case, so names are compared without the case of ASCII letters. -/

namespace Adventure.Text

/-- The text with its ASCII letters in lower case. -/
def lower (s : String) : String := String.ofList (s.toList.map Char.toLower)

/-- Equality up to the case of ASCII letters. -/
def sameName (a b : String) : Bool := lower a == lower b

/-- Ends with `ending`, up to the case of ASCII letters. -/
def endsWithName (s ending : String) : Bool :=
  (lower ending).toList.isSuffixOf (lower s).toList

/-- Turns backslashes into slashes. -/
def withSlashes (s : List Char) : List Char := s.map fun c => if c = '\\' then '/' else c

/-- The path of a game file below the data folder. Names that start with two dots
count from the data folder itself, all others from its folder of scenes. -/
def dataPath (name : String) : String :=
  String.ofList <| withSlashes <|
    match name.toList with
    | '.' :: '.' :: [] => []
    | '.' :: '.' :: c :: r => if c.utf8Size = 1 then r else []
    | s => "SCN/".toList ++ s

/-- The part of a path up to its last backslash. -/
def folder (s : String) : String :=
  String.ofList (s.toList.reverse.dropWhile (· ≠ '\\')).reverse

end Adventure.Text
