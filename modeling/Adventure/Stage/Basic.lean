import Adventure.Stage.Input
import Adventure.Picture.Surface
import Adventure.Sound.Mixer
import Adventure.Digest.Sha256

/-! The stage: screen, clock, sound and input of a game that runs without a window.
Time passes only when the game waits, and input comes from a schedule. -/

namespace Adventure

/-- A frame that was shown. -/
structure FrameRecord where
  index : Nat
  time : UInt32
  overlay : Bool
  picture : ByteArray

/-- The digest of what was shown. -/
def FrameRecord.digest (f : FrameRecord) : String := Sha256.hexDigest f.picture

structure Stage where
  /-- Three bytes for each of 256 colours. -/
  palette : ByteArray := Bytes.replicate 768 0
  /-- Three bytes for each pixel, from the top row to the bottom row. -/
  screen : ByteArray := Bytes.replicate (3 * (screenWidth * screenHeight)) 0
  /-- The size of the video that covers the screen, if one does. -/
  overlay : Option (Nat × Nat) := none
  overlayFrame : ByteArray := ByteArray.empty
  input : Input := {}
  /-- Input to come, ordered by frame. -/
  schedule : List ScheduledInput := []
  quitAt : Option Nat := none
  quit : Bool := false
  now : UInt32 := 0
  /-- The frames that were shown last, the last one first. -/
  recent : List FrameRecord := []
  mixer : Mixer
  /-- The mixer is heard while time passes. -/
  audible : Bool := false
  outputRate : Nat
  mixed : Nat := 0

namespace Stage

/-- The most frames that are remembered. -/
def maxRecent : Nat := 1024

def ofRate (outputRate : Nat) : Stage where
  mixer := Mixer.ofRate outputRate
  outputRate

/-- The number of frames shown so far. -/
def presented (s : Stage) : Nat :=
  match s.recent with
  | [] => 0
  | f :: _ => f.index + 1

/-- Inserts input behind all that comes no later. -/
def insertInput (i : ScheduledInput) : List ScheduledInput → List ScheduledInput
  | [] => [i]
  | j :: r => if i.atFrame < j.atFrame then i :: j :: r else j :: insertInput i r

def scheduleInput (s : Stage) (i : ScheduledInput) : Stage :=
  { s with schedule := insertInput i s.schedule }

/-- Takes the input that is due, one after the other. -/
def takeDue (presented : Nat) : List ScheduledInput → Input → Input × List ScheduledInput
  | [], input => (input, [])
  | i :: r, input => if presented < i.atFrame then (input, i :: r) else takeDue presented r i.input

/-- Brings the input up to date, and the wish to quit. -/
def processEvents (s : Stage) : Stage :=
  let n := s.presented
  let (input, schedule) := takeDue n s.schedule s.input
  let due := match s.quitAt with
    | some m => decide (m ≤ n)
    | none => false
  { s with input, schedule, quit := s.quit || due }

/-- Shows the screen, or the video that covers it. -/
def present (s : Stage) : Stage :=
  let record : FrameRecord :=
    ⟨s.presented, s.now, s.overlay.isSome, if s.overlay.isSome then s.overlayFrame else s.screen⟩
  { s with recent := record :: s.recent.take (maxRecent - 1) }

/-- Lets time pass, with the sound of that time. -/
def sleep (s : Stage) (ms : UInt32) : Stage :=
  let s := { s with now := s.now + ms }
  if s.audible then
    let n := s.outputRate * ms.toNat / 1000
    let (_, mixer) := s.mixer.mix n
    { s with mixer, mixed := s.mixed + n }
  else s

def startAudio (s : Stage) : Stage := { s with audible := true }

def stopAudio (s : Stage) : Stage := { s with audible := false }

/-- Covers the screen by a video. -/
def beginOverlay (s : Stage) (w h : Nat) : Stage :=
  { s with overlay := some (w, h), overlayFrame := ByteArray.empty }

def endOverlay (s : Stage) : Stage := { s with overlay := none, overlayFrame := ByteArray.empty }

/-- The first `n` rows of `w` pixels of two bytes; rows that are not all there are left out. -/
def overlayRows (buffer : ByteArray) (pitch w : Nat) (row : Nat) : Nat → ByteArray → ByteArray
  | 0, out => out
  | n + 1, out =>
    overlayRows buffer pitch w (row + 1) n
      (if row * pitch + 2 * w ≤ buffer.size then out ++ buffer.extract (row * pitch) (row * pitch + 2 * w)
        else out)

/-- Takes a frame of the video, if one covers the screen. -/
def setOverlay (s : Stage) (buffer : ByteArray) (pitch : Nat) : Stage :=
  match s.overlay with
  | none => s
  | some (w, h) => { s with overlayFrame := overlayRows buffer pitch w 0 h ByteArray.empty }

end Stage

end Adventure
