/-! Blanks and comments of scene and dialogue files. A comment runs from two
slashes to the end of the line; a line whose first visible byte is a semicolon
or a slash is one as a whole. Comments are overwritten by spaces, so the length
of the text and its line breaks stay. -/

namespace Adventure.Text

/-- Bytes that separate words. A backquote counts as one. -/
def isBlankByte (b : UInt8) : Bool := b == 32 || b == 9 || b == 13 || b == 10 || b == 0x60

/-- The list starts with a line end: a line feed, or a carriage return right before one. -/
def atLineEnd : List UInt8 → Bool
  | 10 :: _ => true
  | 13 :: 10 :: _ => true
  | _ => false

/-- Overwrites everything between two slashes and the end of their line; `inside`
says that the slashes stand before the list. -/
def blankSlashes (inside : Bool) : List UInt8 → List UInt8
  | [] => []
  | b :: r =>
    if inside then
      if atLineEnd (b :: r) then b :: blankSlashes false r else 32 :: blankSlashes true r
    else if b = 47 ∧ r.head? = some 47 then 32 :: blankSlashes true r
    else b :: blankSlashes false r

/-- Where a line is read: before its first visible byte, in a line that stays, or
in a line that is a comment. -/
inductive LinePart where
  | lead | kept | comment
  deriving DecidableEq

/-- Overwrites the lines that are comments as a whole. Carriage returns stay. -/
def blankLines : LinePart → List UInt8 → List UInt8
  | _, [] => []
  | part, b :: r =>
    if b = 10 then b :: blankLines .lead r
    else match part with
      | .lead =>
        if isBlankByte b then b :: blankLines .lead r
        else if b = 59 ∨ b = 47 then 32 :: blankLines .comment r
        else b :: blankLines .kept r
      | .kept => b :: blankLines .kept r
      | .comment => (if b = 13 then b else 32) :: blankLines .comment r

/-- Turns tabs into spaces and overwrites all comments. -/
def stripComments (l : List UInt8) : List UInt8 :=
  blankLines .lead (blankSlashes false (l.map fun b => if b = 9 then 32 else b))

end Adventure.Text
