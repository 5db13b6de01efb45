import Adventure.Bytes.Cursor

/-! What can be wrong with a cutscene. -/

namespace Adventure

inductive VideoError where
  | notAvi
  | header (name : String)
  | noMovie
  | frameRate
  | pictureFormat (w h strips : UInt16)
  | chunkSize (size available : Nat)
  | pictureEnd (offset : Nat)
  /-- No answer at all: a chunk of a picture without any size is read over and over. -/
  | endless
  | read (e : ReadError)
  deriving DecidableEq, Repr

namespace VideoError

def message : VideoError → String
  | .notAvi => "Not an AVI file"
  | .header n => s!"Unsupported {n} header"
  | .noMovie => "No movi list"
  | .frameRate => "Invalid frame rate"
  | .pictureFormat w h n => s!"Unsupported cinepak frame {w}x{h} with {n} strips"
  | .chunkSize n a => s!"Chunk of {n} bytes overruns the file ({a} bytes left)"
  | .pictureEnd i => s!"Cinepak frame truncated at offset {i}"
  | .endless => "Endless cinepak frame"
  | .read e => e.message

instance : OfReadError VideoError := ⟨.read⟩

end VideoError

end Adventure
