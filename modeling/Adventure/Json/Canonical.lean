import Adventure.Json.Basic
import Adventure.Digest.Sha256

/-! The canonical text of a JSON value: compact, and the members of each object
sorted by name. Values that differ only in the order of members share it. -/

namespace Adventure.Json

/-- Inserts a member before the first one with a greater name. -/
def insertMember (m : String × Json) : List (String × Json) → List (String × Json)
  | [] => [m]
  | n :: r => if m.1 < n.1 then m :: n :: r else n :: insertMember m r

mutual

/-- Sorts the members of every object by name. -/
def sorted : Json → Json
  | .arr items => .arr (sortedItems items)
  | .obj members => .obj (sortedMembers members)
  | v => v

def sortedItems : List Json → List Json
  | [] => []
  | v :: r => sorted v :: sortedItems r

def sortedMembers : List (String × Json) → List (String × Json)
  | [] => []
  | (k, v) :: r => insertMember (k, sorted v) (sortedMembers r)

end

def canonical (v : Json) : String := v.sorted.compact

/-- The SHA-256 digest of the canonical text. -/
def digest (v : Json) : String := Sha256.hexDigest v.canonical.toUTF8

end Adventure.Json
