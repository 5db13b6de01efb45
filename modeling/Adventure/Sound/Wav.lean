import Adventure.Bytes.Basic

/-! Sounds in wav files, played with a fixed step through their samples. -/

namespace Adventure

/-- One moment of sound on both sides. -/
structure Stereo where
  left : Int16 := 0
  right : Int16 := 0
  deriving DecidableEq, Repr, Inhabited

inductive SoundError where
  | notWave
  | format (compression channels : UInt16) (rate : UInt32) (bits : UInt16)
  | noFreeChannel
  deriving DecidableEq, Repr

def SoundError.message : SoundError → String
  | .notWave => "Not a RIFF/WAVE pcm file"
  | .format c n r b => s!"Unhandled wav/pcm format compression {c} channels {n} rate {r} bits {b}"
  | .noFreeChannel => "No free mixer channel"

/-- Adds a sample to another one, scaled by a volume of at most 256 and kept in range. -/
def mixSample (dst : Int16) (sample volume : Int) : Int16 :=
  (max (-0x8000) (min 0x7FFF (dst.toInt + sample * volume / 256))).toInt16

/-- A sample of eight bits, made one of sixteen around zero. -/
def widen (b : UInt8) : Int16 := ((b.toUInt16 <<< 8) ^^^ 0x8000).toInt16

/-- A sound and how far it has been played. -/
structure Wav where
  samples : ByteArray
  /-- The place of the next sample, times 256. -/
  offset : Nat := 0
  /-- The distance of two samples, times 256. -/
  step : Nat
  /-- Samples have two bytes. -/
  wide : Bool
  stereo : Bool
  volume : Int

namespace Wav

/-- The volume of a sound that is not changed. -/
def fullVolume : Int := 256

/-- The four bytes at `i` are the given text. -/
def hasTag (b : ByteArray) (i : Nat) (tag : String) : Bool :=
  b.extract i (i + tag.utf8ByteSize) == tag.toUTF8

/-- The samples behind the format of a file, which takes `n` bytes. -/
def samplesOf (data : ByteArray) (n : Nat) : Option ByteArray :=
  let pos := 20 + n
  if hasTag data pos "data" then
    (Bytes.le32? data (pos + 4)).map fun size => data.extract (pos + 8) (pos + 8 + size.toNat)
  else none

/-- Reads a file, to be played at the given rate. -/
def load (data : ByteArray) (outputRate : Nat) : Except SoundError Wav :=
  if !hasTag data 8 "WAVEfmt " then .error .notWave
  else
    match Bytes.le32? data 16, Bytes.le16? data 20, Bytes.le16? data 22, Bytes.le32? data 24,
      Bytes.le16? data 34 with
    | some size, some compression, some channels, some rate, some bits =>
      if compression ≠ 1 ∨ ¬(channels = 1 ∨ channels = 2) ∨ ¬(rate = 11025 ∨ rate = 22050 ∨ rate = 44100) ∨
          ¬(bits = 8 ∨ bits = 16) then
        .error (.format compression channels rate bits)
      else
        match samplesOf data size.toNat with
        | none => .error .notWave
        | some samples => .ok {
            samples
            step := rate.toNat * 256 / max outputRate 1
            wide := bits = 16
            stereo := channels = 2
            volume := fullVolume }
    | _, _, _, _, _ => .error .notWave

/-- The sample at the current place. -/
def sample? (w : Wav) : Option Int16 :=
  let i := w.offset / 256
  if w.wide then Bytes.le16s? w.samples (2 * i) else w.samples[i]?.map widen

/-- Takes one sample and steps on; at the end nothing moves. -/
def next (w : Wav) : Option Int × Wav :=
  match w.sample? with
  | some s => (some s.toInt, { w with offset := w.offset + w.step })
  | none => (none, w)

/-- Takes the samples of both sides, which are one sample in a mono sound. -/
def nextPair (w : Wav) : Option (Int × Int) × Wav :=
  match w.next with
  | (none, w) => (none, w)
  | (some l, w) =>
    if w.stereo then
      match w.next with
      | (none, w) => (none, w)
      | (some r, w) => (some (l, r), w)
    else (some (l, l), w)

/-- Adds the sound to what is still to come of a buffer; what is done stands in
reverse, and `n` counts what the sound gave. -/
def addFrom (w : Wav) (done : List Stereo) (n : Nat) : List Stereo → List Stereo × Nat × Wav
  | [] => (done.reverse, n, w)
  | f :: rest =>
    match w.nextPair with
    | (none, w) => (done.reverseAux (f :: rest), n, w)
    | (some (l, r), w) =>
      addFrom w (⟨mixSample f.left l w.volume, mixSample f.right r w.volume⟩ :: done) (n + 1) rest

/-- Adds the sound to a buffer as far as it goes, and says how far. -/
def addTo (w : Wav) (buffer : List Stereo) : List Stereo × Nat × Wav := w.addFrom [] 0 buffer

/-- A file with a header of 44 bytes. -/
def file (channels : UInt16) (rate : UInt32) (bits : UInt16) (samples : ByteArray) : ByteArray :=
  let align := channels * bits / 8
  let size := samples.size.toUInt32
  let b := Bytes.push32 "RIFF".toUTF8 (36 + size) ++ "WAVEfmt ".toUTF8
  let b := Bytes.push16 (Bytes.push16 (Bytes.push32 b 16) 1) channels
  let b := Bytes.push32 (Bytes.push32 b rate) (rate * align.toUInt32)
  let b := Bytes.push16 (Bytes.push16 b align) bits ++ "data".toUTF8
  Bytes.push32 b size ++ samples

end Wav

end Adventure
