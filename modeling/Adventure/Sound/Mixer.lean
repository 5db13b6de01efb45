import Adventure.Sound.Queue

/-! The mixer: a few channels, each with at most one sound, and the sound of a
cutscene, which silences them while it is on. -/

namespace Adventure

/-- A sound that is being played. -/
structure Channel where
  id : Nat
  sound : Wav

structure Mixer where
  outputRate : Nat
  channels : List (Option Channel)
  /-- The number of the sound that was started last. -/
  seed : Nat
  /-- The volume of sounds that are started from now on. -/
  volume : Int
  queue : SoundQueue
  /-- The cutscene's sound is on. -/
  cutscene : Bool

namespace Mixer

def maxChannels : Nat := 4

/-- The id that no sound has. -/
def noSound : Int := -1

def ofRate (outputRate : Nat) : Mixer where
  outputRate
  channels := List.replicate maxChannels none
  seed := 0
  volume := Wav.fullVolume
  queue := {}
  cutscene := false

def setVolume (m : Mixer) (volume : Int) : Mixer := { m with volume := max 0 (min 256 volume) }

/-- Starts a sound on the first free channel. Its id holds a running number of 16 bits
and the channel. -/
def start (m : Mixer) (sound : Wav) : Except SoundError (Int × Mixer) :=
  match m.channels.findIdx? Option.isNone with
  | none => .error .noFreeChannel
  | some i =>
    let seed := (m.seed + 1) % 0x10000
    let id := seed * 16 + i
    .ok (id, { m with seed, channels := m.channels.set i (some ⟨id, sound⟩) })

/-- Plays a wav file. -/
def play (m : Mixer) (file : ByteArray) : Except SoundError (Int × Mixer) :=
  match Wav.load file m.outputRate with
  | .error e => .error e
  | .ok w => m.start { w with volume := m.volume }

/-- The channel that an id names. -/
def channelIndex (id : Int) : Nat := (id % 16).toNat

/-- The sound of that id, if it is still playing. -/
def find? (m : Mixer) (id : Int) : Option Channel :=
  (m.channels[channelIndex id]?.join).filter fun c => (c.id : Int) = id

def isPlaying (m : Mixer) (id : Int) : Bool := (m.find? id).isSome

def stop (m : Mixer) (id : Int) : Mixer :=
  if m.isPlaying id then { m with channels := m.channels.set (channelIndex id) none } else m

def stopAll (m : Mixer) : Mixer := { m with channels := m.channels.map fun _ => none }

/-- Lets one channel add to a buffer. A channel that gives nothing becomes free. -/
def mixChannel (c : Option Channel) (buffer : List Stereo) : Option Channel × List Stereo :=
  match c with
  | none => (none, buffer)
  | some c =>
    let (buffer, n, sound) := c.sound.addTo buffer
    (if n = 0 then none else some { c with sound }, buffer)

def mixChannels : List (Option Channel) → List Stereo → List (Option Channel) × List Stereo
  | [], buffer => ([], buffer)
  | c :: rest, buffer =>
    let (c, buffer) := mixChannel c buffer
    let (rest, buffer) := mixChannels rest buffer
    (c :: rest, buffer)

/-- The next `n` moments of sound. -/
def mix (m : Mixer) (n : Nat) : List Stereo × Mixer :=
  let silence := List.replicate n {}
  if m.cutscene then
    let (buffer, queue) := m.queue.fill silence
    (buffer, { m with queue })
  else
    let (channels, buffer) := mixChannels m.channels silence
    (buffer, { m with channels })

/-- Begins the sound of a cutscene, with nothing to play yet. -/
def beginCutscene (m : Mixer) : Mixer := { m with queue := {}, cutscene := true }

def endCutscene (m : Mixer) : Mixer := { m with cutscene := false }

end Mixer

end Adventure
