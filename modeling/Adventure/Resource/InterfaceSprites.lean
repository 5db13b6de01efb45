import Adventure.Resource.Error
import Adventure.Codec.Lzss
import Adventure.Picture.Sprite

/-! The sprites of the interface, all in one packed buffer in a fixed order. -/

namespace Adventure

structure InterfaceSprites where
  /-- To take, to talk, and the girl. -/
  bagActions : List ByteArray := []
  /-- Twelve pictures for each of eleven levels. -/
  lifeBar : List (List ByteArray) := []
  objectBlink : List ByteArray := []
  weaponIcons : List ByteArray := []
  /-- Two sets of five. -/
  ammoIcons : List (List ByteArray) := []
  swordIcon : Option ByteArray := none
  iconBackground : ByteArray := ByteArray.empty
  lifeBarImage : ByteArray := ByteArray.empty
  weaponBlink : List ByteArray := []
  deriving Inhabited

namespace InterfaceSprites

/-- The buffer, and the place and the index of the next sprite. -/
structure Splitter where
  data : ByteArray
  pos : Nat := 0
  index : Nat := 0

abbrev M := EStateM ResourceError Splitter

/-- The next sprite, which must be complete. -/
def next : M ByteArray := do
  let s ← get
  let size := Sprite.size (s.data.extract s.pos (s.pos + 4))
  if s.data.size < s.pos + size then throw (.interfaceSprite s.index)
  set { s with pos := s.pos + size, index := s.index + 1 }
  return s.data.extract s.pos (s.pos + size)

def take : Nat → M (List ByteArray)
  | 0 => return []
  | n + 1 => do
    let b ← next
    return b :: (← take n)

def takeRows (n : Nat) : Nat → M (List (List ByteArray))
  | 0 => return []
  | rows + 1 => do
    let r ← take n
    return r :: (← takeRows n rows)

/-- All sprites in their order. The demo has no sword and no blinking weapon area. -/
def split (demo : Bool) : M InterfaceSprites := do
  let bagActions ← take 3
  let lifeBar ← takeRows 12 11
  let objectBlink ← take 10
  let weaponIcons ← take 14
  let ammoIcons ← takeRows 5 2
  let swordIcon ← if demo then pure none else some <$> next
  let iconBackground ← next
  let lifeBarImage ← next
  let weaponBlink ← if demo then pure [] else take 10
  return ⟨bagActions, lifeBar, objectBlink, weaponIcons, ammoIcons, swordIcon, iconBackground,
    lifeBarImage, weaponBlink⟩

def ofDecoded (data : ByteArray) (demo : Bool) : Except ResourceError InterfaceSprites :=
  match split demo { data } with
  | .ok s _ => .ok s
  | .error e _ => .error e

/-- Decodes the file, whose first word is not looked at. -/
def decode (data : ByteArray) (demo : Bool) : Except ResourceError InterfaceSprites := do
  ofDecoded (← ResourceError.ofCodec (Lzss.decode (data.extract 2 data.size))) demo

end InterfaceSprites

end Adventure
