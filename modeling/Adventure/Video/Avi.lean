import Adventure.Video.Error

/-! Cutscene files: headers of one video and one sound stream, and a list of records,
each a list of chunks of the two streams for one frame. -/

namespace Adventure

structure AviHeader where
  frames : UInt32 := 0
  width : UInt32 := 0
  height : UInt32 := 0
  streams : UInt32 := 0
  /-- Frames per second. -/
  frameRate : UInt32 := 0
  audioBuffer : UInt32 := 0
  videoBuffer : UInt32 := 0
  deriving DecidableEq, Repr, Inhabited

inductive ChunkKind where
  | audio | video
  deriving DecidableEq, Repr

structure Chunk where
  kind : ChunkKind
  data : ByteArray

namespace Avi

def frameWidth : Nat := 320

def frameHeight : Nat := 200

/-- The field of four bytes at `i`, zero when there is none. -/
def field (b : ByteArray) (i : Nat) : UInt32 := (Bytes.le32? b i).getD 0

def isTag (b : ByteArray) (tag : String) : Bool := b == tag.toUTF8

/-- The main header: how many frames there are, how large and how fast. -/
def readMain (h : AviHeader) : ReadM VideoError AviHeader := do
  let b ← Cursor.bytes 56
  if field b 0 = 0 then throw .frameRate
  let h := { h with
    frameRate := 1000000 / field b 0
    frames := field b 16
    streams := field b 24
    width := field b 32
    height := field b 36 }
  if h.frameRate = 0 then throw .frameRate
  if h.streams ≠ 2 ∨ h.width.toNat ≠ frameWidth ∨ h.height.toNat ≠ frameHeight then throw (.header "avih")
  return h

/-- The header of a stream: plain sound, or pictures of the one coding there is. -/
def readStream (h : AviHeader) : ReadM VideoError AviHeader := do
  let b ← Cursor.bytes 56
  if isTag (b.extract 0 4) "auds" ∧ field b 4 = 0 then return { h with audioBuffer := field b 36 }
  if isTag (b.extract 0 8) "vidscvid" then return { h with videoBuffer := field b 36 }
  throw (.header "strh")

/-- The format of the sound: one channel of bytes at 44100 Hz. -/
def readSoundFormat : ReadM VideoError Unit := do
  let b ← Cursor.bytes 16
  if ¬(Bytes.le16? b 0 = some 1 ∧ Bytes.le16? b 2 = some 1 ∧ field b 4 = 44100 ∧ Bytes.le16? b 14 = some 8) then
    throw (.header "strf auds")

/-- The format of the pictures, which have the size of the main header. -/
def readPictureFormat (h : AviHeader) : ReadM VideoError Unit := do
  let b ← Cursor.bytes 40
  if ¬(field b 4 = h.width ∧ field b 8 = h.height ∧ Bytes.le16? b 12 = some 1 ∧ Bytes.le16? b 14 = some 24) then
    throw (.header "strf vids")

/-- One chunk of the headers, or the start of the records. -/
def readHeaderChunk (h : AviHeader) : ReadM VideoError (AviHeader ⊕ AviHeader) := do
  let tag ← Cursor.bytes 4
  let size ← Cursor.u32
  if isTag tag "LIST" then
    let kind ← Cursor.bytes 4
    return if isTag kind "movi" then .inr h else .inl h
  else if isTag tag "avih" ∧ size = 56 then return .inl (← readMain h)
  else if isTag tag "strh" ∧ size = 56 then return .inl (← readStream h)
  else if isTag tag "strf" ∧ size = 16 then
    readSoundFormat
    return .inl h
  else if isTag tag "strf" ∧ size = 40 then
    readPictureFormat h
    return .inl h
  else
    if (← get).remaining < size.toNat then throw .noMovie
    Cursor.skip size.toNat
    return .inl h

/-- All headers up to the records. -/
def readHeaders : ReadM VideoError AviHeader := do
  Cursor.seek 8
  if !isTag (← Cursor.bytes 4) "AVI " then throw .notAvi
  Cursor.loop readHeaderChunk {}

end Avi

/-- A cutscene that is being read, and how many bytes of the current record are left. -/
structure Demuxer where
  cursor : Cursor
  header : AviHeader
  left : Int := 0

namespace Demuxer

abbrev M := EStateM VideoError Demuxer

def load (data : ByteArray) : Except VideoError Demuxer :=
  match Avi.readHeaders ⟨data, 0⟩ with
  | .ok header cursor => .ok { cursor, header }
  | .error e _ => .error e

def onCursor {α : Type} (m : ReadM VideoError α) : M α := fun d =>
  match m d.cursor with
  | .ok a cursor => .ok a { d with cursor }
  | .error e cursor => .error e { d with cursor }

/-- Chunks take an even number of bytes. -/
def padded (size : Nat) : Nat := (size + 1) / 2 * 2

/-- The stream that a chunk belongs to, by the end of its tag. -/
def kindOf (tag : ByteArray) : Option ChunkKind :=
  if Avi.isTag (tag.extract 2 4) "wb" then some .audio
  else if Avi.isTag (tag.extract 2 4) "dc" then some .video
  else none

/-- The next chunk of the record. There is none at the end of the file, and a chunk of
neither stream is skipped and ends the frame. -/
def nextChunk : M (Option Chunk) := do
  if (← get).cursor.remaining < 8 then return none
  if (← get).left ≤ 0 then
    let list ← onCursor (Cursor.bytes 12)
    modify fun d => { d with left := (Avi.field list 4).toNat - 4 }
  let tag ← onCursor (Cursor.bytes 4)
  let size := (← onCursor Cursor.u32).toNat
  let available := (← get).cursor.remaining
  if available < size then throw (.chunkSize size available)
  modify fun d => { d with left := d.left - (padded size + 8) }
  let data ← onCursor (Cursor.bytes (min (padded size) available))
  match kindOf tag with
  | none => return none
  | some kind =>
    modify fun d => { d with left := max d.left 0 }
    return some ⟨kind, data⟩

/-- The chunks up to the end of the record; the first argument bounds their number. -/
def chunksFrom : Nat → List Chunk → M (List Chunk)
  | 0, acc => return acc.reverse
  | fuel + 1, acc => do
    match ← nextChunk with
    | none => return acc.reverse
    | some c =>
      if (← get).left = 0 then return (c :: acc).reverse
      chunksFrom fuel (c :: acc)

/-- The chunks of the next frame, none at the end of the file. A chunk takes some of
the bytes that are left, so that there are not more of them. -/
def nextFrame : M (List Chunk) := do chunksFrom ((← get).cursor.remaining + 1) []

/-- Counts the chunks of both streams in `n` frames, up to an empty one. -/
def countFrames : Nat → Nat → Nat → M (Nat × Nat)
  | 0, audio, video => return (audio, video)
  | n + 1, audio, video => do
    let chunks ← nextFrame
    if chunks.isEmpty then return (audio, video)
    countFrames n (audio + chunks.countP fun c => c.kind = .audio)
      (video + chunks.countP fun c => c.kind = .video)

/-- The header of a cutscene, and how many chunks of each stream it has. -/
def scan (data : ByteArray) : Except VideoError (AviHeader × Nat × Nat) := do
  let d ← Demuxer.load data
  match countFrames d.header.frames.toNat 0 0 d with
  | .ok n _ => .ok (d.header, n)
  | .error e _ => .error e

end Demuxer

end Adventure
