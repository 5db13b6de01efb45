import Adventure.Sound.Wav

/-! The sound of a cutscene: chunks of samples, of which every other one is played.
Nothing is heard until a few chunks have come in. -/

namespace Adventure

/-- The chunks that are still to be played, each with the place of its next sample,
and how many chunks have come in, counted up to the number that is waited for. -/
structure SoundQueue where
  chunks : List (ByteArray × Nat) := []
  preloaded : Nat := 0

namespace SoundQueue

def preload : Nat := 4

def push (q : SoundQueue) (chunk : ByteArray) : SoundQueue where
  chunks := q.chunks ++ [(chunk, 0)]
  preloaded := if q.preloaded < preload then q.preloaded + 1 else q.preloaded

/-- The next sample. A chunk without samples stands for one moment of silence. -/
def next : List (ByteArray × Nat) → Option (Int16 × List (ByteArray × Nat))
  | [] => none
  | (chunk, i) :: rest =>
    some (widen ((chunk[i]?).getD 0x80), if chunk.size ≤ i + 2 then rest else (chunk, i + 2) :: rest)

/-- Fills a buffer as far as the chunks go. -/
def fillFrom (chunks : List (ByteArray × Nat)) (done : List Stereo) :
    List Stereo → List Stereo × List (ByteArray × Nat)
  | [] => (done.reverse, chunks)
  | f :: rest =>
    match next chunks with
    | none => (done.reverseAux (f :: rest), chunks)
    | some (s, chunks) => fillFrom chunks (⟨s, s⟩ :: done) rest

def fill (q : SoundQueue) (buffer : List Stereo) : List Stereo × SoundQueue :=
  if q.preloaded < preload then (buffer, q)
  else
    let (buffer, chunks) := fillFrom q.chunks [] buffer
    (buffer, { q with chunks })

end SoundQueue

end Adventure
