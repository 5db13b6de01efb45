/-! What the player does. -/

namespace Adventure

structure Input where
  /-- The directions that are held, one bit each. -/
  directions : UInt8 := 0
  enter : Bool := false
  space : Bool := false
  shift : Bool := false
  ctrl : Bool := false
  tab : Bool := false
  escape : Bool := false
  leftButton : Bool := false
  rightButton : Bool := false
  mouseX : Int := 0
  mouseY : Int := 0
  save : Bool := false
  load : Bool := false
  /-- By how much to change the slot of saved games. -/
  slotChange : Int := 0
  /-- Frames are not waited for. -/
  fast : Bool := false
  deriving DecidableEq, Repr, Inhabited

inductive Direction where
  | up | down | left | right
  deriving DecidableEq, Repr

def Direction.bit : Direction → UInt8
  | .up => 1
  | .down => 2
  | .left => 4
  | .right => 8

namespace Input

def holds (i : Input) (d : Direction) : Bool := i.directions &&& d.bit ≠ 0

def release (i : Input) (d : Direction) : Input := { i with directions := i.directions &&& ~~~d.bit }

end Input

/-- Input that takes effect once so many frames have been shown. -/
structure ScheduledInput where
  atFrame : Nat
  input : Input
  deriving DecidableEq, Repr, Inhabited

end Adventure
