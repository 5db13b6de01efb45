import Adventure.Bytes.Cursor
import Adventure.Codec.Error

/-! What can be wrong with a resource file. -/

namespace Adventure

inductive ResourceError where
  | background (tag : UInt16)
  | spriteBank (tag : UInt16)
  | movie (tag : UInt16)
  | dimensions (width height : UInt32)
  | section_ (kind : UInt16)
  | initRecord (kind : UInt16)
  | objectVar (index : UInt16)
  | duplicateObject (name : String)
  | tooManyFrames (count : Nat)
  | interfaceSprite (index : Nat)
  | read (e : ReadError)
  | codec (e : CodecError)
  deriving DecidableEq, Repr

namespace ResourceError

open CodecError (hexNumber)

def message : ResourceError → String
  | .background t => s!"Invalid wgp format {hexNumber t.toNat}"
  | .spriteBank t => s!"Invalid spr format {hexNumber t.toNat}"
  | .movie t => s!"Invalid mov format {hexNumber t.toNat}"
  | .dimensions w h => s!"Invalid bitmap dimensions {w}x{h}"
  | .section_ k => s!"Unknown mov section {k}"
  | .initRecord k => s!"Unknown object init record {k}"
  | .objectVar i => s!"Object variable index {i} out of range"
  | .duplicateObject n => s!"Duplicate object name {n}"
  | .tooManyFrames n => s!"Too many dialogue sprite frames ({n})"
  | .interfaceSprite i => s!"Common sprites truncated at entry {i}"
  | .read e => e.message
  | .codec e => e.message

instance : OfReadError ResourceError := ⟨.read⟩

/-- Reports a decoding fault as one of the resource. -/
def ofCodec {α : Type} : Except CodecError α → Except ResourceError α
  | .ok a => .ok a
  | .error e => .error (.codec e)

end ResourceError

/-- Runs a decoder within a reader. -/
def liftCodec {α : Type} (r : Except CodecError α) : ReadM ResourceError α :=
  match r with
  | .ok a => pure a
  | .error e => throw (.codec e)

end Adventure
