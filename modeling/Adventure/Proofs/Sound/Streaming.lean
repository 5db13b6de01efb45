import Adventure.Proofs.Bytes.Fields
import Adventure.Proofs.Sound.Parts

/-! The sound of a cutscene as it streams. Chunks are pushed and buffers are filled in any order, and the borders of
the one have nothing to do with those of the other. Of all bytes that were pushed every other one is played once,
in their order: what the buffers were filled with is always the beginning of that, and only its end leaves a
buffer unfilled. -/

namespace Adventure

/-- The items at even places. -/
def everyOther {α : Type} : List α → List α
  | [] => []
  | [a] => [a]
  | a :: _ :: l => a :: everyOther l

theorem getElem?_everyOther {α : Type} (l : List α) (i : Nat) : (everyOther l)[i]? = l[2 * i]? := by
  induction l using everyOther.induct generalizing i with
  | case1 => rfl
  | case2 a => cases i <;> simp [everyOther]
  | case3 a b l ih =>
    cases i with
    | zero => rfl
    | succ i => simpa [everyOther, Nat.mul_succ] using ih i

theorem everyOther_append {α : Type} {k : List α} (hk : k.length % 2 = 0) (l : List α) :
    everyOther (k ++ l) = everyOther k ++ everyOther l := by
  induction k using everyOther.induct with
  | case1 => rfl
  | case2 a => simp at hk
  | case3 a b k ih =>
    have hrest : k.length % 2 = 0 := by
      simp only [List.length_cons] at hk
      omega
    simp [everyOther, ih hrest]

namespace SoundQueue

/-- A byte as it is heard, on both sides alike. -/
def frame (b : UInt8) : Stereo := ⟨widen b, widen b⟩

/-- What is heard of some bytes. -/
def frames (l : List UInt8) : List Stereo := (everyOther l).map frame

/-- All that chunks have to give, one behind the other. -/
def supply (chunks : List ByteArray) : List Stereo := frames (chunks.flatMap Bytes.list)

/-- Every frame is one of the bytes at even places. -/
theorem getElem?_supply (chunks : List ByteArray) (i : Nat) :
    (supply chunks)[i]? = (chunks.flatMap Bytes.list)[2 * i]?.map frame := by
  rw [supply, frames, List.getElem?_map, getElem?_everyOther]

/-- The next `n` frames, as far as the chunks go, and the chunks that are left. -/
def upcoming : Nat → List (ByteArray × Nat) → List Stereo × List (ByteArray × Nat)
  | 0, chunks => ([], chunks)
  | n + 1, chunks =>
    match next chunks with
    | none => ([], chunks)
    | some (s, chunks) => (⟨s, s⟩ :: (upcoming n chunks).1, (upcoming n chunks).2)

/-- What a read of `n` frames writes. -/
def writes (q : SoundQueue) (n : Nat) : List Stereo := if q.preloaded < preload then [] else (upcoming n q.chunks).1

/-! ### Filling a buffer -/

theorem fillFrom_eq (chunks : List (ByteArray × Nat)) (buffer : List Stereo) :
    fillFrom chunks [] buffer =
      ((upcoming buffer.length chunks).1 ++ buffer.drop (upcoming buffer.length chunks).1.length,
        (upcoming buffer.length chunks).2) := by
  induction buffer generalizing chunks with
  | nil => rfl
  | cons f buffer ih =>
    cases h : next chunks with
    | none => simp [fillFrom_none h, upcoming, h]
    | some p => simp [fillFrom_some h, upcoming, h, ih]

/-- The tail of a buffer that a read does not reach is left as it was. -/
theorem fill_eq (q : SoundQueue) (buffer : List Stereo) :
    (q.fill buffer).1 = q.writes buffer.length ++ buffer.drop (q.writes buffer.length).length := by
  by_cases h : q.preloaded < preload
  · simp [fill, writes, h]
  · simp [fill, writes, h, fillFrom_eq]

/-! ### Chunks that are partly played -/

/-- A chunk of whole pairs of bytes, of which some are left. -/
def Playable (c : ByteArray × Nat) : Prop := c.1.size % 2 = 0 ∧ c.2 % 2 = 0 ∧ c.2 < c.1.size

/-- What the chunks still have to give. -/
def pending (chunks : List (ByteArray × Nat)) : List Stereo := chunks.flatMap fun c => frames ((Bytes.list c.1).drop c.2)

@[simp] theorem pending_cons (c : ByteArray × Nat) (chunks : List (ByteArray × Nat)) :
    pending (c :: chunks) = frames ((Bytes.list c.1).drop c.2) ++ pending chunks := rfl

theorem drop_list {chunk : ByteArray} {i : Nat} (h : i < chunk.size) :
    ∃ b, chunk[i]? = some b ∧ (Bytes.list chunk).drop i = b :: (Bytes.list chunk).drop (i + 1) := by
  refine ⟨(Bytes.list chunk)[i], ?_, List.drop_eq_getElem_cons h⟩
  rw [← Bytes.getElem?_list]
  exact List.getElem?_eq_getElem h

/-- A chunk that is not yet at its end gives the first of its frames that are left, and is done with behind the last. -/
theorem next_playable {c : ByteArray × Nat} {chunks : List (ByteArray × Nat)} (h : ∀ c' ∈ c :: chunks, Playable c') :
    ∃ s rest, next (c :: chunks) = some (s, rest) ∧ pending (c :: chunks) = ⟨s, s⟩ :: pending rest ∧
      ∀ c' ∈ rest, Playable c' := by
  obtain ⟨chunk, i⟩ := c
  obtain ⟨heven, hplace, hi⟩ : chunk.size % 2 = 0 ∧ i % 2 = 0 ∧ i < chunk.size := h _ List.mem_cons_self
  have hrest : ∀ c' ∈ chunks, Playable c' := fun c' hc' => h c' (List.mem_cons_of_mem _ hc')
  obtain ⟨b, hb, hfirst⟩ := drop_list hi
  obtain ⟨_, -, hsecond⟩ := drop_list (show i + 1 < chunk.size by omega)
  have hframes : frames ((Bytes.list chunk).drop i) = frame b :: frames ((Bytes.list chunk).drop (i + 2)) := by
    rw [hfirst, hsecond]
    rfl
  rw [next, hb]
  refine ⟨widen b, _, rfl, ?_, ?_⟩
  · rw [pending_cons, hframes]
    split
    · rename_i hend
      rw [List.drop_eq_nil_of_le hend]
      rfl
    · rfl
  · split
    · exact hrest
    · rename_i hmore
      intro c' hc'
      rcases List.mem_cons.mp hc' with rfl | hc'
      · exact ⟨heven, by dsimp only; omega, by dsimp only; omega⟩
      · exact hrest c' hc'

/-- Frames are taken from the front of what is pending. -/
theorem upcoming_playable (n : Nat) {chunks : List (ByteArray × Nat)} (h : ∀ c ∈ chunks, Playable c) :
    (upcoming n chunks).1 = (pending chunks).take n ∧ pending (upcoming n chunks).2 = (pending chunks).drop n ∧
      ∀ c ∈ (upcoming n chunks).2, Playable c := by
  induction n generalizing chunks with
  | zero => exact ⟨rfl, rfl, h⟩
  | succ n ih =>
    cases chunks with
    | nil => exact ⟨rfl, rfl, h⟩
    | cons c chunks =>
      obtain ⟨s, rest, hnext, hpending, hrest⟩ := next_playable h
      obtain ⟨htaken, hleft, hkept⟩ := ih hrest
      simp only [upcoming, hnext, hpending, List.take_succ_cons, List.drop_succ_cons]
      exact ⟨by rw [htaken], hleft, hkept⟩

/-! ### Requests -/

/-- What a stream is asked for. -/
inductive Request where
  | push (chunk : ByteArray)
  | read (buffer : List Stereo)

/-- A stream, with all chunks that were pushed to it and all frames that were read. -/
structure History where
  queue : SoundQueue := {}
  pushed : List ByteArray := []
  heard : List Stereo := []

namespace History

def request (h : History) : Request → History
  | .push chunk => { h with queue := h.queue.push chunk, pushed := h.pushed ++ [chunk] }
  | .read buffer =>
    { h with queue := (h.queue.fill buffer).2, heard := h.heard ++ h.queue.writes buffer.length }

/-- A new stream after some requests. -/
def ofRequests (requests : List Request) : History := requests.foldl request {}

/-- What was heard and what is pending make up what was pushed. -/
structure Sound (h : History) : Prop where
  counted : h.queue.preloaded = min preload h.pushed.length
  even : (h.pushed.flatMap Bytes.list).length % 2 = 0
  playable : ∀ c ∈ h.queue.chunks, Playable c
  supply_eq : h.heard ++ pending h.queue.chunks = supply h.pushed
  silent : h.pushed.length < preload → h.heard = []

variable {h : History}

theorem Sound.push (hs : h.Sound) {chunk : ByteArray} (hsize : 0 < chunk.size) (heven : chunk.size % 2 = 0) :
    (h.request (.push chunk)).Sound where
  counted := by
    have := hs.counted
    simp only [request, SoundQueue.push, List.length_append, List.length_singleton]
    split <;> omega
  even := by
    have := hs.even
    simp only [request, List.flatMap_append, List.flatMap_singleton, List.length_append, Bytes.length_list]
    omega
  playable := by
    intro c hc
    rcases List.mem_append.mp hc with hc | hc
    · exact hs.playable c hc
    · obtain rfl := List.mem_singleton.mp hc
      exact ⟨heven, rfl, hsize⟩
  supply_eq := by
    have hpending : pending (h.queue.chunks ++ [(chunk, 0)]) = pending h.queue.chunks ++ frames (Bytes.list chunk) := by
      simp [pending]
    have hsupply : supply (h.pushed ++ [chunk]) = supply h.pushed ++ frames (Bytes.list chunk) := by
      simp [supply, frames, everyOther_append hs.even]
    simp only [request, SoundQueue.push]
    rw [hpending, hsupply, ← hs.supply_eq, List.append_assoc]
  silent := by
    intro hfew
    apply hs.silent
    simp only [request, List.length_append] at hfew
    omega

/-- A read writes the first frames that are pending, once enough chunks have come in. -/
theorem Sound.writes_eq (hs : h.Sound) (n : Nat) :
    h.queue.writes n = if h.pushed.length < preload then [] else (pending h.queue.chunks).take n := by
  have hcounted : h.queue.preloaded < preload ↔ h.pushed.length < preload := by
    rw [hs.counted]
    omega
  unfold writes
  by_cases hfew : h.pushed.length < preload
  · rw [if_pos hfew, if_pos (hcounted.mpr hfew)]
  · rw [if_neg hfew, if_neg (mt hcounted.mp hfew), (upcoming_playable n hs.playable).1]

theorem Sound.fill_few (hs : h.Sound) (hfew : h.pushed.length < preload) (buffer : List Stereo) :
    h.queue.fill buffer = (buffer, h.queue) := by
  have hwaits : h.queue.preloaded < preload := by
    rw [hs.counted]
    omega
  rw [fill, if_pos hwaits]

theorem Sound.read (hs : h.Sound) (buffer : List Stereo) : (h.request (.read buffer)).Sound := by
  by_cases hfew : h.pushed.length < preload
  · -- nothing is written and nothing is taken
    have hsame : h.request (.read buffer) = h := by
      rw [request, hs.fill_few hfew, hs.writes_eq, if_pos hfew, List.append_nil]
    rwa [hsame]
  · have hready : ¬h.queue.preloaded < preload := by
      rw [hs.counted]
      omega
    obtain ⟨-, hleft, hkept⟩ := upcoming_playable buffer.length hs.playable
    have hqueue : (h.queue.fill buffer).2 = { h.queue with chunks := (upcoming buffer.length h.queue.chunks).2 } := by
      rw [fill, if_neg hready, fillFrom_eq]
    constructor
    case counted =>
      rw [request, hqueue]
      exact hs.counted
    case even => exact hs.even
    case playable =>
      rw [request, hqueue]
      exact hkept
    case supply_eq =>
      rw [request, hqueue, hs.writes_eq, if_neg hfew]
      dsimp only
      rw [hleft, List.append_assoc, List.take_append_drop, hs.supply_eq]
    case silent => exact fun h => absurd h hfew

theorem sound_ofRequests (requests : List Request)
    (hchunks : ∀ chunk, .push chunk ∈ requests → 0 < chunk.size ∧ chunk.size % 2 = 0) : (ofRequests requests).Sound := by
  have hrun : ∀ (requests : List Request) (h : History), h.Sound →
      (∀ chunk, .push chunk ∈ requests → 0 < chunk.size ∧ chunk.size % 2 = 0) → (requests.foldl request h).Sound := by
    intro requests
    induction requests with
    | nil => exact fun _ hs _ => hs
    | cons r requests ih =>
      intro h hs hchunks
      apply ih
      · cases r with
        | push chunk =>
          obtain ⟨hsize, heven⟩ := hchunks chunk List.mem_cons_self
          exact hs.push hsize heven
        | read buffer => exact hs.read buffer
      · exact fun chunk hc => hchunks chunk (List.mem_cons_of_mem _ hc)
  apply hrun requests _ _ hchunks
  exact ⟨rfl, rfl, (fun _ hc => nomatch hc), rfl, fun _ => rfl⟩

end History

/-- The sound of a cutscene is heard as it was pushed. However the pushes of chunks of whole pairs of bytes and the reads
follow each other, no read writes or takes anything before the fourth push, and from then on all that was written is the
beginning of what every other byte that was pushed so far sounds like. A read leaves the tail of its buffer as it was just
when all of that has been written. -/
theorem read_in_order (requests : List Request)
    (hchunks : ∀ chunk, .push chunk ∈ requests → 0 < chunk.size ∧ chunk.size % 2 = 0) (buffer : List Stereo) :
    let h := History.ofRequests requests
    let written := h.queue.writes buffer.length
    (h.queue.fill buffer).1 = written ++ buffer.drop written.length ∧ written.length ≤ buffer.length ∧
      (h.request (.read buffer)).heard = h.heard ++ written ∧ h.heard ++ written <+: supply h.pushed ∧
      (h.pushed.length < 4 → h.heard ++ written = [] ∧ h.queue.fill buffer = (buffer, h.queue)) ∧
      (4 ≤ h.pushed.length →
        (written.length < buffer.length ↔ (supply h.pushed).length < h.heard.length + buffer.length) ∧
        (written.length < buffer.length → h.heard ++ written = supply h.pushed)) := by
  intro h written
  have hs : h.Sound := History.sound_ofRequests requests hchunks
  have hwritten : written = if h.pushed.length < 4 then [] else (pending h.queue.chunks).take buffer.length :=
    hs.writes_eq buffer.length
  have hsupply : h.heard ++ pending h.queue.chunks = supply h.pushed := hs.supply_eq
  have hlength : (supply h.pushed).length = h.heard.length + (pending h.queue.chunks).length := by
    rw [← hsupply, List.length_append]
  refine ⟨fill_eq h.queue buffer, ?_, rfl, ?_, fun hfew => ?few, fun hmany => ?many⟩
  · rw [hwritten]
    split
    · exact Nat.zero_le _
    · exact List.length_take_le _ _
  · rw [hwritten, ← hsupply, List.prefix_append_right_inj]
    split
    · exact List.nil_prefix
    · exact List.take_prefix _ _
  case few =>
    rw [hwritten, if_pos hfew, List.append_nil]
    exact ⟨hs.silent hfew, hs.fill_few hfew buffer⟩
  case many =>
    rw [if_neg (Nat.not_lt.mpr hmany)] at hwritten
    rw [hlength, hwritten, List.length_take]
    refine ⟨by omega, fun hshort => ?_⟩
    rw [List.take_of_length_le (by omega), hsupply]

/-- Two reads around the push that wakes the stream: the first one is too early, the second one ends in the second chunk. -/
def wakingRequests : List Request :=
  [.push (Bytes.ofList [0xC0, 0x00, 0x40, 0x00]), .push (Bytes.ofList [0x90, 0x00]), .push (Bytes.ofList [0x80, 0x80]),
    .read [⟨1, 1⟩], .push (Bytes.ofList [0xA0, 0x00]), .read [{}, {}, {}]]

theorem read_in_order_wakingRequests :
    (∀ chunk, .push chunk ∈ wakingRequests → 0 < chunk.size ∧ chunk.size % 2 = 0) ∧
      (History.ofRequests wakingRequests).heard = [⟨0x4000, 0x4000⟩, ⟨-0x4000, -0x4000⟩, ⟨0x1000, 0x1000⟩] ∧
      ((History.ofRequests wakingRequests).queue.fill [⟨1, 1⟩, ⟨1, 1⟩, ⟨1, 1⟩]).1 = [⟨0, 0⟩, ⟨0x2000, 0x2000⟩, ⟨1, 1⟩] ∧
      (History.ofRequests wakingRequests).heard ++ (History.ofRequests wakingRequests).queue.writes 3 <+:
        supply (History.ofRequests wakingRequests).pushed := by
  have hchunks : ∀ chunk, .push chunk ∈ wakingRequests → 0 < chunk.size ∧ chunk.size % 2 = 0 := by
    intro chunk hc
    simp only [wakingRequests, List.mem_cons, Request.push.injEq, reduceCtorEq, List.not_mem_nil, false_or, or_false] at hc
    rcases hc with rfl | rfl | rfl | rfl <;> decide
  obtain ⟨-, -, -, hheard, -⟩ := read_in_order wakingRequests hchunks [⟨1, 1⟩, ⟨1, 1⟩, ⟨1, 1⟩]
  exact ⟨hchunks, by decide, by decide, hheard⟩

end SoundQueue

end Adventure
