/-! Numbers of 32 bits with a sign. -/

namespace Adventure.Word

/-- The least and the greatest number. -/
def least : Int := -2147483648

def greatest : Int := 2147483647

/-- The value has a place in 32 bits. -/
def fits (v : Int) : Bool := least ≤ v ∧ v ≤ greatest

/-- One less; from the least number it goes on with the greatest. -/
def pred (v : Int) : Int := if v = least then greatest else v - 1

end Adventure.Word
