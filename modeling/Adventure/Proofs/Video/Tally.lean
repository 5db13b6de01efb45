import Mathlib.Algebra.Group.Prod
import Adventure.Proofs.Video.Demuxing
import Adventure.Video.Playback

/-! How many chunks a cutscene has, as it is scanned and as it is played. Both read the same frames one
after the other. The scan stops at the first frame that is empty, taking it for the end of the file;
but a frame is empty too when its record opens with a chunk of neither stream, and playing goes on. -/

namespace Adventure

/-- How many chunks of sound and of pictures there are. -/
def tally (l : List Chunk) : Nat × Nat := (l.countP fun c => c.kind = .audio, l.countP fun c => c.kind = .video)

theorem tally_append (l l' : List Chunk) : tally (l ++ l') = tally l + tally l' := by
  rw [tally, List.countP_append, List.countP_append]
  rfl

/-- Every chunk counts. -/
theorem tally_eq_zero {l : List Chunk} : tally l = (0, 0) ↔ l = [] := by
  constructor
  · intro h
    refine List.eq_nil_iff_forall_not_mem.mpr fun c hc => ?_
    cases hk : c.kind with
    | audio => exact List.countP_eq_zero.mp (congrArg Prod.fst h) c hc (decide_eq_true hk)
    | video => exact List.countP_eq_zero.mp (congrArg Prod.snd h) c hc (decide_eq_true hk)
  · rintro rfl
    rfl

/-- The frames in front of the first empty one, which a scan takes for all there are. -/
def scanned (frames : List (List Chunk)) : List (List Chunk) := frames.takeWhile fun f => !f.isEmpty

/-- The first empty frame and those behind it. -/
def unscanned (frames : List (List Chunk)) : List (List Chunk) := frames.dropWhile fun f => !f.isEmpty

/-- A scan misses nothing just when all frames behind the first empty one are empty. -/
theorem tally_scanned (frames : List (List Chunk)) :
    tally (scanned frames).flatten = tally frames.flatten ↔ ∀ f ∈ unscanned frames, f = [] := by
  have hsplit : tally frames.flatten = tally (scanned frames).flatten + tally (unscanned frames).flatten := by
    rw [← tally_append, ← List.flatten_append, scanned, unscanned, List.takeWhile_append_dropWhile]
  calc tally (scanned frames).flatten = tally frames.flatten
      ↔ tally (unscanned frames).flatten = 0 := by rw [hsplit, left_eq_add]
    _ ↔ (unscanned frames).flatten = [] := tally_eq_zero
    _ ↔ ∀ f ∈ unscanned frames, f = [] := List.flatten_eq_nil_iff

namespace Demuxer

/-- The next `n` frames. -/
def nextFrames : Nat → M (List (List Chunk))
  | 0 => return []
  | n + 1 => do
    let frame ← nextFrame
    return frame :: (← nextFrames n)

theorem nextFrames_succ {n : Nat} {d d' : Demuxer} {l : List (List Chunk)} :
    nextFrames (n + 1) d = .ok l d' ↔
      ∃ frame e rest, nextFrame d = .ok frame e ∧ nextFrames n e = .ok rest d' ∧ l = frame :: rest := by
  rw [nextFrames]
  constructor
  · intro h
    obtain ⟨frame, e, hframe, h⟩ := bind_eq_ok.mp h
    obtain ⟨rest, e', hrest, h⟩ := bind_eq_ok.mp h
    cases h
    exact ⟨frame, e, rest, hframe, hrest, rfl⟩
  · rintro ⟨frame, e, rest, hframe, hrest, rfl⟩
    rw [bind_of_ok hframe, bind_of_ok hrest]
    rfl

theorem length_nextFrames {n : Nat} {d d' : Demuxer} {l : List (List Chunk)} (h : nextFrames n d = .ok l d') :
    l.length = n := by
  induction n generalizing d l with
  | zero =>
    cases h
    rfl
  | succ n ih =>
    obtain ⟨frame, e, rest, hframe, hrest, rfl⟩ := nextFrames_succ.mp h
    rw [List.length_cons, ih hrest]

/-- Counting goes as far as the first empty frame, where the frames can all be read. -/
theorem countFrames_eq {n : Nat} {d d' : Demuxer} {l : List (List Chunk)} (h : nextFrames n d = .ok l d')
    (c : Nat × Nat) : ∃ e, countFrames n c.1 c.2 d = .ok (c + tally (scanned l).flatten) e := by
  induction n generalizing d l c with
  | zero =>
    cases h
    exact ⟨_, rfl⟩
  | succ n ih =>
    obtain ⟨frame, e, rest, hframe, hrest, rfl⟩ := nextFrames_succ.mp h
    rw [countFrames, bind_of_ok hframe]
    by_cases hempty : frame.isEmpty = true
    · have hstop : scanned (frame :: rest) = [] := by
        rw [scanned, List.takeWhile_cons_of_neg (by simpa using hempty)]
      rw [if_pos hempty, hstop]
      exact ⟨e, rfl⟩
    · have hmore : scanned (frame :: rest) = frame :: scanned rest := by
        rw [scanned, List.takeWhile_cons_of_pos (by simpa using hempty)]
        rfl
      rw [if_neg hempty, hmore, List.flatten_cons, tally_append, ← add_assoc]
      exact ih hrest (c + tally frame)

end Demuxer

namespace Playback

/-- A report of more chunks. -/
def withChunks (r : PlaybackReport) (l : List Chunk) : PlaybackReport :=
  { r with audioChunks := r.audioChunks + (tally l).1, videoChunks := r.videoChunks + (tally l).2 }

theorem withChunks_append (r : PlaybackReport) (l l' : List Chunk) :
    withChunks r (l ++ l') = withChunks (withChunks r l) l' := by
  simp only [withChunks, tally_append, Prod.fst_add, Prod.snd_add, Nat.add_assoc]

theorem playChunk_ok {c : Chunk} {s t : State} (h : playChunk c s = .ok () t) :
    t.demuxer = s.demuxer ∧ t.report = withChunks s.report [c] := by
  obtain ⟨kind, data⟩ := c
  cases kind with
  | audio =>
    cases h
    exact ⟨rfl, rfl⟩
  | video =>
    obtain ⟨_, _, hget, h⟩ := bind_eq_ok.mp h
    cases hget
    cases hdecode : s.cinepak.decode data with
    | error e =>
      rw [hdecode] at h
      cases h
    | ok cinepak =>
      rw [hdecode] at h
      cases h
      exact ⟨rfl, rfl⟩

/-- Playing chunks reads none, and each is counted. -/
theorem playChunks_ok {l : List Chunk} {s t : State} (h : playChunks l s = .ok () t) :
    t.demuxer = s.demuxer ∧ t.report = withChunks s.report l := by
  induction l generalizing s with
  | nil =>
    cases h
    exact ⟨rfl, rfl⟩
  | cons c rest ih =>
    obtain ⟨_, u, hc, hrest⟩ := bind_eq_ok.mp h
    obtain ⟨hdemuxer, hreport⟩ := playChunk_ok hc
    obtain ⟨hdemuxer', hreport'⟩ := ih hrest
    rw [hdemuxer', hreport', hdemuxer, hreport, ← withChunks_append]
    exact ⟨rfl, rfl⟩

/-- The player is asked without reading on, and the answer stands in the report. -/
theorem interrupted_leads (s : State) : Leads interrupted s
    (fun b u => u.demuxer = s.demuxer ∧ (b = true → u.report.interrupted = true) ∧ (b = false → u.report = s.report))
    fun _ => False := by
  refine Leads.bind (m := onStage Stage.processEvents) (Leads.bind (m := get) ?_)
  refine Leads.ite (fun _ => ?_) fun _ => ?_
  · exact ⟨rfl, fun _ => rfl, nofun⟩
  · exact ⟨rfl, nofun, fun _ => rfl⟩

theorem nextFrame_ok {l : List Chunk} {s t : State} (h : nextFrame s = .ok l t) :
    s.demuxer.nextFrame = .ok l t.demuxer ∧ t.report = s.report := by
  unfold nextFrame at h
  cases hframe : s.demuxer.nextFrame with
  | ok l' d =>
    rw [hframe] at h
    cases h
    exact ⟨rfl, rfl⟩
  | error e d =>
    rw [hframe] at h
    cases h

/-- A report of more frames. -/
def withFrames (r : PlaybackReport) (l : List (List Chunk)) : PlaybackReport :=
  { withChunks r l.flatten with framesPlayed := r.framesPlayed + l.length }

theorem withFrames_cons (r : PlaybackReport) (frame : List Chunk) (l : List (List Chunk)) :
    withFrames { withChunks r frame with framesPlayed := (withChunks r frame).framesPlayed + 1 } l =
      withFrames r (frame :: l) := by
  unfold withFrames
  rw [List.flatten_cons, withChunks_append, List.length_cons, Nat.add_comm l.length 1, ← Nat.add_assoc]
  rfl

/-- When the player does not end it, playing reads one frame after the other and counts their chunks. -/
theorem frames_ok {n : Nat} {s t : State} (h : frames n s = .ok () t) (hon : t.report.interrupted = false) :
    ∃ l d, s.demuxer.nextFrames n = .ok l d ∧ t.report = withFrames s.report l := by
  induction n generalizing s with
  | zero =>
    cases h
    exact ⟨[], _, rfl, rfl⟩
  | succ n ih =>
    unfold frames at h
    obtain ⟨_, _, hget, h⟩ := bind_eq_ok.mp h
    cases hget
    obtain ⟨b, u, hasked, h⟩ := bind_eq_ok.mp h
    obtain ⟨hdemuxer, hyes, hno⟩ := (interrupted_leads s).of_ok hasked
    cases b with
    | true =>
      cases h
      exact absurd (hyes rfl) (by simp [hon])
    | false =>
      obtain ⟨frame, v, hframe, h⟩ := bind_eq_ok.mp h
      obtain ⟨_, w, hplayed, h⟩ := bind_eq_ok.mp h
      obtain ⟨_, x, hcounted, h⟩ := bind_eq_ok.mp h
      obtain ⟨_, y, hwaited, h⟩ := bind_eq_ok.mp h
      cases hcounted
      cases hwaited
      obtain ⟨rest, d, hrest, hreport⟩ := ih h
      obtain ⟨hread, hsame⟩ := nextFrame_ok hframe
      obtain ⟨hkept, hchunks⟩ := playChunks_ok hplayed
      rw [hdemuxer] at hread
      change w.demuxer.nextFrames n = .ok rest d at hrest
      rw [hkept] at hrest
      refine ⟨frame :: rest, d, Demuxer.nextFrames_succ.mpr ⟨frame, v.demuxer, rest, hread, hrest, rfl⟩, ?_⟩
      rw [hreport, ← withFrames_cons, ← hno rfl, ← hsame, ← hchunks]

end Playback

/-- A cutscene can be opened, and these are all its frames. -/
def Frames (data : ByteArray) (header : AviHeader) (frames : List (List Chunk)) : Prop :=
  ∃ d d', Demuxer.load data = .ok d ∧ d.header = header ∧ Demuxer.nextFrames header.frames.toNat d = .ok frames d'

theorem Frames.scan {data : ByteArray} {header : AviHeader} {frames : List (List Chunk)}
    (h : Frames data header frames) : Demuxer.scan data = .ok (header, tally (scanned frames).flatten) := by
  obtain ⟨d, d', hload, rfl, hframes⟩ := h
  obtain ⟨e, hcount⟩ := Demuxer.countFrames_eq hframes 0
  change Demuxer.countFrames d.header.frames.toNat 0 0 d = _ at hcount
  simp only [Demuxer.scan, hload, bind, Except.bind, hcount, zero_add]

theorem Playback.play_ok {data : ByteArray} {s t : Stage} {r : PlaybackReport} (h : play data s = .ok r t)
    (hon : r.interrupted = false) : ∃ header frames, Frames data header frames ∧
      r = withFrames { framesTotal := header.frames.toNat } frames := by
  unfold play at h
  cases hload : Demuxer.load data with
  | error e =>
    rw [hload] at h
    cases h
  | ok d =>
    rw [hload] at h
    dsimp only at h
    split at h
    · rename_i u hrun
      cases h
      obtain ⟨l, d', hframes, hreport⟩ := frames_ok hrun hon
      exact ⟨d.header, l, ⟨d, d', hload, rfl, hframes⟩, hreport⟩
    · cases h

/-- A cutscene that is played to its end can be scanned, and the scan counts the chunks in front of the
first empty frame. So it has the numbers of what was played just when no chunk stands behind an empty
frame. -/
theorem scan_of_play {data : ByteArray} {s t : Stage} {r : PlaybackReport} (h : Playback.play data s = .ok r t)
    (hon : r.interrupted = false) :
    ∃ header frames, Frames data header frames ∧ header.frames.toNat = r.framesTotal ∧ frames.length = r.framesTotal ∧
      tally frames.flatten = (r.audioChunks, r.videoChunks) ∧
      Demuxer.scan data = .ok (header, tally (scanned frames).flatten) ∧
      (Demuxer.scan data = .ok (header, r.audioChunks, r.videoChunks) ↔ ∀ f ∈ unscanned frames, f = []) := by
  obtain ⟨header, frames, hframes, rfl⟩ := Playback.play_ok h hon
  have hlength : frames.length = header.frames.toNat := by
    obtain ⟨d, d', -, -, hread⟩ := hframes
    exact Demuxer.length_nextFrames hread
  have hcounts : tally frames.flatten = (0 + (tally frames.flatten).1, 0 + (tally frames.flatten).2) := by
    simp only [Nat.zero_add]
  refine ⟨header, frames, hframes, rfl, hlength, hcounts, hframes.scan, ?_⟩
  change Demuxer.scan data = .ok (header, 0 + (tally frames.flatten).1, 0 + (tally frames.flatten).2) ↔ _
  rw [← hcounts, hframes.scan, ← tally_scanned]
  simp

/-! ### A scan that stops early -/

/-- Two frames. The record of the first one opens with a chunk that belongs to neither stream, that of the
second one has sound. -/
def paddedCutscene : ByteArray :=
  let header := Bytes.long 66666 ++ List.replicate 12 0 ++ Bytes.long 2 ++ List.replicate 4 0 ++ Bytes.long 2 ++
    List.replicate 4 0 ++ Bytes.long 320 ++ Bytes.long 200 ++ List.replicate 16 0
  let records := Text.bytes "LIST" ++ Bytes.long 12 ++ Text.bytes "rec " ++ Text.bytes "JUNK" ++ Bytes.long 0 ++
    (Text.bytes "LIST" ++ Bytes.long 14 ++ Text.bytes "rec " ++ Text.bytes "01wb" ++ Bytes.long 2 ++ [1, 2])
  Bytes.ofList (Text.bytes "RIFF" ++ Bytes.long 0 ++ Text.bytes "AVI " ++
    (Text.bytes "avih" ++ Bytes.long 56 ++ header ++ Avi.opening (4 + records.length).toUInt32 ++ records))

def quietStage : Stage := Stage.ofRate 22050

theorem play_paddedCutscene : ∃ t, Playback.play paddedCutscene quietStage = .ok ⟨2, 2, 1, 0, false⟩ t :=
  of_run (by decide +kernel)

theorem scan_paddedCutscene : ∃ header, Demuxer.scan paddedCutscene = .ok (header, 0, 0) := by
  have hscan : (Demuxer.scan paddedCutscene).toOption.map Prod.snd = some (0, 0) := by decide +kernel
  generalize Demuxer.scan paddedCutscene = e at hscan ⊢
  cases e with
  | error e => cases hscan
  | ok a =>
    have hcounts : a.2 = (0, 0) := Option.some_inj.mp hscan
    exact ⟨a.1, by rw [← hcounts]⟩

/-- Sound that is played need not be counted. -/
theorem scan_stops_early : ∃ s t r header, Playback.play paddedCutscene s = .ok r t ∧ r.interrupted = false ∧
    r.audioChunks = 1 ∧ Demuxer.scan paddedCutscene = .ok (header, 0, 0) := by
  obtain ⟨t, hplay⟩ := play_paddedCutscene
  obtain ⟨header, hscan⟩ := scan_paddedCutscene
  exact ⟨quietStage, t, _, header, hplay, rfl, rfl, hscan⟩

/-- Here the sound stands behind an empty frame. -/
theorem scan_of_play_paddedCutscene : ∃ header frames, Frames paddedCutscene header frames ∧
    tally frames.flatten = (1, 0) ∧ Demuxer.scan paddedCutscene = .ok (header, tally (scanned frames).flatten) ∧
    (Demuxer.scan paddedCutscene = .ok (header, 1, 0) ↔ ∀ f ∈ unscanned frames, f = []) := by
  obtain ⟨t, hplay⟩ := play_paddedCutscene
  obtain ⟨header, frames, hframes, -, -, htally, hscan, hiff⟩ := scan_of_play hplay rfl
  exact ⟨header, frames, hframes, htally, hscan, hiff⟩

end Adventure
