/-! The random numbers that scripts see. -/

namespace Adventure

/-- A generator of 15-bit numbers with 32 bits of state. -/
structure Random where
  state : UInt32
  deriving DecidableEq, Repr

namespace Random

def ofSeed (seed : UInt16) : Random := ⟨seed.toUInt32⟩

/-- The next state: the low half is multiplied and incremented, and the high half
collects a second product. -/
def step (s : UInt32) : UInt32 :=
  let lo := s.toUInt16
  let hi := (s >>> 16).toUInt16
  let mixed := 0x15A * lo + (if hi = 0 then 0 else 0x4E35 * hi)
  ((mixed.toUInt32 <<< 16) ||| ((0x4E35 * lo.toUInt32) &&& 0xFFFF)) + 1

/-- The next number, from 0 to 0x7FFF. -/
def next (g : Random) : UInt16 × Random :=
  let s := step g.state
  ((s &&& 0x7FFF).toUInt16, ⟨s⟩)

end Random

end Adventure
