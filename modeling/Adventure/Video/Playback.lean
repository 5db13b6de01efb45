import Adventure.Video.Cinepak
import Adventure.Stage.Screen

/-! Playing a cutscene on the stage. -/

namespace Adventure

/-- What was played of a cutscene. -/
structure PlaybackReport where
  framesTotal : Nat
  framesPlayed : Nat := 0
  audioChunks : Nat := 0
  videoChunks : Nat := 0
  interrupted : Bool := false
  deriving DecidableEq, Repr, Inhabited

namespace Playback

/-- A cutscene on the stage. -/
structure State where
  stage : Stage
  demuxer : Demuxer
  cinepak : Cinepak
  report : PlaybackReport

abbrev M := EStateM VideoError State

def onStage (f : Stage → Stage) : M Unit := modify fun s => { s with stage := f s.stage }

def count (f : PlaybackReport → PlaybackReport) : M Unit := modify fun s => { s with report := f s.report }

def nextFrame : M (List Chunk) := fun s =>
  match s.demuxer.nextFrame with
  | .ok l demuxer => .ok l { s with demuxer }
  | .error e demuxer => .error e { s with demuxer }

/-- Plays sound, or shows a picture. -/
def playChunk (c : Chunk) : M Unit := do
  match c.kind with
  | .audio =>
    onStage fun s => { s with mixer := { s.mixer with queue := s.mixer.queue.push c.data } }
    count fun r => { r with audioChunks := r.audioChunks + 1 }
  | .video =>
    match (← get).cinepak.decode c.data with
    | .error e => throw e
    | .ok cinepak =>
      modify fun s => { s with cinepak }
      onStage fun s => (s.setOverlay cinepak.frame Cinepak.pitch).present
      count fun r => { r with videoChunks := r.videoChunks + 1 }

def playChunks : List Chunk → M Unit
  | [] => pure ()
  | c :: r => do
    playChunk c
    playChunks r

/-- The player wants to end the cutscene. The keys for that are used up. -/
def interrupted : M Bool := do
  onStage Stage.processEvents
  let s := (← get).stage
  if s.quit || s.input.enter || s.input.escape then
    onStage fun s => { s with input := { s.input with enter := false, escape := false } }
    count fun r => { r with interrupted := true }
    return true
  return false

/-- Waits until a time, if it lies ahead. -/
def waitUntil (time : UInt32) : M Unit := onStage fun s =>
  let ahead := time - s.now
  if ahead ≠ 0 ∧ ahead < 0x80000000 then s.sleep ahead else s

/-- Plays `n` frames. -/
def frames : Nat → M Unit
  | 0 => pure ()
  | n + 1 => do
    let s ← get
    let time := s.stage.now + 1000 / s.demuxer.header.frameRate
    if !(← interrupted) then
      playChunks (← nextFrame)
      count fun r => { r with framesPlayed := r.framesPlayed + 1 }
      waitUntil time
      frames n

/-- Plays a cutscene. Afterwards the screen and the sounds are back, also when a fault
ended it. -/
def play (data : ByteArray) : EStateM VideoError Stage PlaybackReport := fun stage =>
  match Demuxer.load data with
  | .error e => .error e stage
  | .ok demuxer =>
    let h := demuxer.header
    let stage := stage.beginOverlay h.width.toNat h.height.toNat
    let stage := { stage with mixer := stage.mixer.beginCutscene }
    let close (s : Stage) : Stage := { s with mixer := s.mixer.endCutscene }.endOverlay
    match frames h.frames.toNat ⟨stage, demuxer, {}, { framesTotal := h.frames.toNat }⟩ with
    | .ok () s => .ok s.report (close s.stage)
    | .error e s => .error e (close s.stage)

end Playback

end Adventure
