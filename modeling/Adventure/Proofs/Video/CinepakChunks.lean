import Adventure.Proofs.Video.CinepakLoops
import Adventure.Proofs.Video.CinepakPainting
import Adventure.Proofs.Video.CinepakReading

/-! Chunks of a picture end where they say. Reading the content of a chunk keeps an account of the bytes
that it takes: the place that is reached and what is left of the size add up to the end of the chunk, also when
the content took more than its size. So all chunks of a picture stand where the sizes in front of them say. -/

namespace Adventure.Cinepak

open Bytes (Holds)
open Loop

variable {α β : Type} {data : ByteArray} {yEnd : Nat} {m : M α} {n : α → Int} {size : Int}

/-- Where the step succeeds it has gone on by as many bytes as its value accounts for. -/
def Moves (m : M α) (n : α → Int) : Prop := ∀ s, Leads m s (fun a t => (t.pos : Int) = s.pos + n a) fun _ => True

/-- The step takes some of `size` bytes and gives what is left, less than nothing if it took more. -/
def Accounts (size : Int) (m : M Int) : Prop := Moves m fun left => size - left

namespace Moves

theorem value {a : α} (h : n a = 0) : Moves (pure a) n := by
  intro s
  show (s.pos : Int) = s.pos + n a
  omega

theorem bind {f : α → M β} {k : β → Int} (hm : Moves m n) (hf : ∀ a, Moves (f a) fun b => k b - n a) :
    Moves (m >>= f) k := by
  intro s
  apply Leads.bind
  apply (hm s).mono
  · intro a t ht
    apply (hf a t).mono
    · intro b u hu
      dsimp only at hu
      omega
    · exact fun _ => id
  · exact fun _ => id

/-- The state may be looked at. -/
theorem look {f : State → M α} (hf : ∀ s, Moves (f s) n) : Moves (get >>= f) n := fun s => hf s s

theorem fault (e : VideoError) : Moves (throw e : M α) n := fun _ => trivial

theorem ite {c : Prop} [Decidable c] {l : M α} (hm : Moves m n) (hl : Moves l n) : Moves (if c then m else l) n := by
  split
  · exact hm
  · exact hl

theorem discard {c : Int} (hm : Moves m fun _ => c) : Moves (discard m) fun _ => c :=
  hm.bind fun _ => value (Int.sub_self c)

theorem of_ok {s t : State} {a : α} (hm : Moves m n) (h : m s = .ok a t) : (t.pos : Int) = s.pos + n a := (hm s).of_ok h

/-! ### Reading -/

theorem byte : Moves (byte data) fun _ => 1 := fun _ => leads_byte (fun _ => Int.natCast_succ _) trivial

theorem word : Moves (word data) fun _ => 2 := byte.bind fun _ => byte.bind fun _ => value rfl

theorem long : Moves (long data) fun _ => 4 := word.bind fun _ => word.bind fun _ => value rfl

theorem readVector : Moves (readVector data) fun _ => 6 :=
  byte.bind fun _ => byte.bind fun _ => byte.bind fun _ => byte.bind fun _ => byte.bind fun _ => byte.bind fun _ =>
    value rfl

/-! ### Changes of the state -/

theorem setVector (book : Book) (i : Nat) (v : PixelVector) : Moves (setVector book i v) fun _ => 0 := by
  intro s
  cases book <;> exact (Int.add_zero _).symm

theorem paintV1 (v : PixelVector) : Moves (paintV1 v) fun _ => 0 := by
  intro s
  rw [Leads, paintV1_eq]
  simp [State.paint]

theorem paintV4 (a b c d : PixelVector) : Moves (paintV4 a b c d) fun _ => 0 := by
  intro s
  rw [Leads, paintV4_eq]
  simp [State.paint]

theorem nextBlock : Moves nextBlock fun _ => 0 := by
  intro s
  show ((if Avi.frameWidth ≤ s.x + 4 then { s with x := 0, y := s.y + 4 } else { s with x := s.x + 4 } : State).pos : Int) = _
  split <;> simp

theorem inStrip : Moves (inStrip yEnd) fun _ => 0 := look fun _ => value rfl

/-- Bytes may be passed over. -/
theorem advance (k : Nat) : Moves (advance k) fun _ => k := by
  intro s
  show (((s.pos : Int) + k).toNat : Int) = s.pos + k
  omega

/-- Entries of a book take six bytes each. -/
theorem fullBook (book : Book) (i k : Nat) : Moves (fullBook data book i k) fun _ => 6 * k := by
  induction k generalizing i with
  | zero => exact value rfl
  | succ k ih =>
    apply readVector.bind
    intro v
    apply (setVector book i v).bind
    intro _ s
    apply (ih (i + 1) s).mono
    · intro _ t ht
      dsimp only at ht ⊢
      omega
    · exact fun _ => id

/-! ### Blocks -/

theorem blockV1 : Moves (blockV1 data) fun _ => 1 := byte.bind fun _ => look fun _ => paintV1 _

theorem blockV4 : Moves (blockV4 data) fun _ => 4 :=
  byte.bind fun _ => byte.bind fun _ => byte.bind fun _ => byte.bind fun _ => look fun _ => paintV4 _ _ _ _

/-- A block tells how many bytes it took. -/
theorem chosenBlock (four : Bool) : Moves (chosenBlock data four) fun n => n := by
  cases four with
  | false => exact blockV1.bind fun _ => value rfl
  | true => exact blockV4.bind fun _ => value rfl

end Moves

namespace Accounts

theorem of_ok {s t : State} {left : Int} {l : M Int} (hl : Accounts size l) (h : l s = .ok left t) :
    (t.pos : Int) + left = s.pos + size := by
  have hpos : (t.pos : Int) = s.pos + (size - left) := Moves.of_ok hl h
  omega

theorem done : Accounts size (pure size) := Moves.value (Int.sub_self size)

/-- What is behind a step accounts for what the step leaves. -/
theorem after {f : α → M Int} (hm : Moves m n) (hf : ∀ a, Accounts (size - n a) (f a)) : Accounts size (m >>= f) := by
  apply hm.bind
  intro a s
  apply (hf a s).mono
  · intro left t ht
    dsimp only at ht ⊢
    omega
  · exact fun _ => id

/-- A step in front that takes nothing. -/
theorem still {f : α → M Int} (hm : Moves m fun _ => 0) (hf : ∀ a, Accounts size (f a)) : Accounts size (m >>= f) := by
  apply after hm
  intro a
  rw [Int.sub_zero]
  exact hf a

theorem bind {l : M Int} {f : Int → M Int} (hl : Accounts size l) (hf : ∀ left, Accounts left (f left)) :
    Accounts size (l >>= f) := by
  apply after hl
  intro left
  rw [Int.sub_sub_self]
  exact hf left

theorem ite {c : Prop} [Decidable c] {l k : M Int} (hl : Accounts size l) (hk : Accounts size k) :
    Accounts size (if c then l else k) := Moves.ite hl hk

/-! ### Books -/

theorem maskedEntries (book : Book) (mask : UInt32) (i n : Nat) : Accounts size (maskedEntries data book mask i size n) := by
  induction n generalizing i size with
  | zero => exact done
  | succ n ih =>
    apply ite
    · exact after Moves.readVector fun _ => still (Moves.setVector _ _ _) fun _ => ih _
    · exact ih _

theorem maskedBook (book : Book) (fuel i : Nat) : Accounts size (maskedBook data book fuel i size) := by
  induction fuel generalizing i size with
  | zero => exact done
  | succ fuel ih =>
    apply ite
    · exact done
    · exact after Moves.long fun _ => bind (maskedEntries _ _ _ _) fun _ => ih _

/-! ### Blocks -/

theorem maskedBlocks (mask : UInt32) (n : Nat) : Accounts size (maskedBlocks data yEnd mask size n) := by
  induction n generalizing size with
  | zero => exact done
  | succ n ih =>
    apply still Moves.inStrip
    intro inside
    apply ite
    · exact done
    · apply ite
      · exact after Moves.blockV4 fun _ => still Moves.nextBlock fun _ => ih
      · exact after Moves.blockV1 fun _ => still Moves.nextBlock fun _ => ih

theorem intraBlocks (fuel : Nat) : Accounts size (intraBlocks data yEnd fuel size) := by
  induction fuel generalizing size with
  | zero => exact done
  | succ fuel ih =>
    apply still Moves.inStrip
    intro inside
    apply ite
    · exact done
    · exact after Moves.long fun _ => bind (maskedBlocks _ _) fun _ => ih

theorem interMask (fuel : Nat) (mask : UInt32) (bit : Nat) : Accounts size (interMask data yEnd fuel mask bit size) := by
  induction fuel generalizing mask bit size with
  | zero => exact done
  | succ fuel ih =>
    apply still Moves.inStrip
    intro inside
    apply ite
    · exact done
    · apply ite
      · apply ite
        · exact after Moves.long fun _ => after (Moves.chosenBlock _) fun _ => still Moves.nextBlock fun _ => ih _ _
        · exact after (Moves.chosenBlock _) fun _ => still Moves.nextBlock fun _ => ih _ _
      · exact still Moves.nextBlock fun _ => ih _ _

theorem interBlocks (fuel : Nat) : Accounts size (interBlocks data yEnd fuel size) := by
  induction fuel generalizing size with
  | zero => exact done
  | succ fuel ih =>
    apply still Moves.inStrip
    intro inside
    apply ite
    · exact done
    · exact after Moves.long fun _ => bind (interMask _ _ _) fun _ => ih

theorem plainBlocks (fuel : Nat) : Accounts size (plainBlocks data yEnd fuel size) := by
  induction fuel generalizing size with
  | zero => exact done
  | succ fuel ih =>
    apply still Moves.inStrip
    intro inside
    apply ite
    · exact done
    · exact after Moves.blockV1 fun _ => still Moves.nextBlock fun _ => ih

/-- Whatever its kind is, the content of a chunk keeps the account. -/
theorem content (kind : UInt16) : Accounts size (content data yEnd kind size) := by
  have full (book : Book) : Accounts size (do
      let n := vectorCount size
      Cinepak.fullBook data book 0 n
      return size - 6 * n) := after (Moves.fullBook book 0 (vectorCount size)) fun _ => done
  unfold Cinepak.content
  split
  · exact full .v4
  · exact full .v1
  · exact maskedBook .v4 _ 0
  · exact maskedBook .v1 _ 0
  · exact intraBlocks _
  · exact interBlocks _
  · exact plainBlocks _
  · exact done

end Accounts

/-! ### Chunks -/

/-- The chunk at `pos` gives `total` as its size, with the four bytes of its head. -/
def Declares (data : ByteArray) (pos total : Nat) : Prop :=
  ∃ kind w : UInt16, Holds data pos (bigWord kind ++ bigWord w) ∧ w.toNat = total

/-- Chunks that stand one behind the other, by their sizes, until `size` bytes are used up. The last one ends at
`stop`. -/
inductive ChunkRow (data : ByteArray) : Nat → Int → Nat → Prop
  | done {pos : Nat} {size : Int} : size ≤ 0 → ChunkRow data pos size pos
  | chunk {pos total stop : Nat} {size : Int} : 0 < size → Declares data pos total →
      ChunkRow data (pos + total) (size - total) stop → ChunkRow data pos size stop

/-- A strip from `pos` to `stop`: its size stands in its head of twelve bytes, and its chunks stand behind that. -/
def StripAt (data : ByteArray) (pos stop : Nat) : Prop :=
  ∃ w : UInt16, Holds data (pos + 2) (bigWord w) ∧ ChunkRow data (pos + 12) ((w.toNat : Int) - 12) stop

variable {s t : State}

theorem byte_ok {v : UInt8} (h : byte data s = .ok v t) : Holds data s.pos [v] ∧ t = { s with pos := s.pos + 1 } := by
  have hread : Leads (byte data) s (fun v t => Holds data s.pos [v] ∧ t = { s with pos := s.pos + 1 }) fun _ => True :=
    leads_byte (fun hpos => ⟨Bytes.holds_single (getElem?_pos data s.pos hpos), rfl⟩) trivial
  exact hread.of_ok h

theorem word_ok {w : UInt16} (h : word data s = .ok w t) : Holds data s.pos (bigWord w) ∧ t = { s with pos := s.pos + 2 } := by
  obtain ⟨hi, t₁, hhi, h⟩ := bind_eq_ok.mp h
  obtain ⟨lo, t₂, hlo, h⟩ := bind_eq_ok.mp h
  cases h
  obtain ⟨hfirst, rfl⟩ := byte_ok hhi
  obtain ⟨hsecond, rfl⟩ := byte_ok hlo
  -- the bytes of a word are those that it was made of
  obtain ⟨w, hw, -⟩ := Bytes.exists_word lo hi
  obtain ⟨rfl, rfl⟩ : w.toUInt8 = lo ∧ (w >>> 8).toUInt8 = hi := by simpa [Bytes.word] using hw
  rw [bigWord_join]
  exact ⟨Holds.append_iff.mpr ⟨hfirst, hsecond⟩, rfl⟩

/-- Reading goes on behind a chunk at the end that its size gives, whatever its content took. -/
theorem chunk_ok {total : Nat} (h : chunk data yEnd s = .ok total t) :
    Declares data s.pos total ∧ t.pos = s.pos + total := by
  obtain ⟨kind, t₁, hkind, h⟩ := bind_eq_ok.mp h
  obtain ⟨w, t₂, hw, h⟩ := bind_eq_ok.mp h
  obtain ⟨left, t₃, hleft, h⟩ := bind_eq_ok.mp h
  obtain ⟨_, t₄, hadvance, h⟩ := bind_eq_ok.mp h
  cases hadvance
  cases h
  obtain ⟨hfirst, rfl⟩ := word_ok hkind
  obtain ⟨hsecond, rfl⟩ := word_ok hw
  have haccount := (Accounts.content kind).of_ok hleft
  refine ⟨⟨kind, w, Holds.append_iff.mpr ⟨hfirst, hsecond⟩, rfl⟩, ?_⟩
  dsimp only at haccount
  show ((t₃.pos : Int) + left).toNat = s.pos + w.toNat
  omega

theorem chunkRow_of_rounds {n : Nat} {left : Int} {stop : Nat} (h : Rounds (chunkRound data yEnd) n size s left t)
    (hrow : ChunkRow data t.pos left stop) : ChunkRow data s.pos size stop := by
  induction h with
  | none => exact hrow
  | next hround _ ih =>
    obtain ⟨hsize, total, hchunk, rfl⟩ := chunkRound_goes.mp hround
    obtain ⟨hdeclares, hpos⟩ := chunk_ok hchunk
    exact .chunk hsize hdeclares (hpos ▸ ih hrow)

/-- The chunks of a strip stand in a row. -/
theorem chunks_row (h : chunks data yEnd size s = .ok () t) : ChunkRow data s.pos size t.pos := by
  obtain ⟨n, left, u, hrounds, hlast⟩ := loop?_eq_some_iff.mp (chunks_ok.mp h)
  refine chunkRow_of_rounds hrounds ?_
  cases hlast with
  | result hround =>
    obtain ⟨hleft, rfl⟩ := chunkRound_stops.mp hround
    exact .done hleft

theorem strip_ok {yStart y : Nat} (h : strip data yStart s = .ok y t) : StripAt data s.pos t.pos := by
  obtain ⟨_, t₁, hkind, h⟩ := bind_eq_ok.mp h
  obtain ⟨size, t₂, hsize, h⟩ := bind_eq_ok.mp h
  obtain ⟨_, t₃, htop, h⟩ := bind_eq_ok.mp h
  obtain ⟨_, t₄, hleft, h⟩ := bind_eq_ok.mp h
  obtain ⟨height, t₅, hheight, h⟩ := bind_eq_ok.mp h
  obtain ⟨_, t₆, hright, h⟩ := bind_eq_ok.mp h
  obtain ⟨_, t₇, hcolumn, h⟩ := bind_eq_ok.mp h
  cases hcolumn
  obtain ⟨_, t₈, hchunks, h⟩ := bind_eq_ok.mp h
  cases h
  have h₁ : (t₁.pos : Int) = s.pos + 2 := Moves.word.discard.of_ok hkind
  have h₃ : (t₃.pos : Int) = t₂.pos + 2 := Moves.word.discard.of_ok htop
  have h₄ : (t₄.pos : Int) = t₃.pos + 2 := Moves.word.discard.of_ok hleft
  have h₅ : (t₅.pos : Int) = t₄.pos + 2 := Moves.word.of_ok hheight
  have h₆ : (t₆.pos : Int) = t₅.pos + 2 := Moves.word.discard.of_ok hright
  obtain ⟨hholds, rfl⟩ := word_ok hsize
  have hrow := chunks_row hchunks
  have hfield : t₁.pos = s.pos + 2 := by omega
  have hbehind : t₆.pos = s.pos + 12 := by
    dsimp only at h₃
    omega
  rw [hfield] at hholds
  dsimp only at hrow
  rw [hbehind] at hrow
  exact ⟨size, hholds, hrow⟩

theorem header_ok {flags : UInt8} (h : header data s = .ok flags t) : t.pos = s.pos + 10 := by
  have hmoves : Moves (header data) fun _ => 10 := by
    apply Moves.byte.bind
    intro flags
    apply (Moves.advance 3).bind
    intro _
    apply Moves.word.bind
    intro w
    apply Moves.word.bind
    intro h
    apply Moves.word.bind
    intro strips
    apply Moves.ite
    · exact .fault _
    · exact .value rfl
  have hpos := hmoves.of_ok h
  omega

/-- The strips of a picture stand one behind the other. -/
theorem picture_ok {lower upper : Codebooks} (h : picture data lower s = .ok upper t) :
    ∃ middle, StripAt data (s.pos + 10) middle ∧ StripAt data middle t.pos := by
  obtain ⟨flags, t₁, hheader, h⟩ := bind_eq_ok.mp h
  obtain ⟨yEnd, t₂, hupper, h⟩ := bind_eq_ok.mp h
  obtain ⟨_, _, hget, h⟩ := bind_eq_ok.mp h
  cases hget
  have hfirst := strip_ok hupper
  rw [header_ok hheader] at hfirst
  refine ⟨t₂.pos, hfirst, ?_⟩
  have hlower {u : State} (hu : u.pos = t₂.pos) (h : (discard (strip data yEnd) >>= fun _ => pure t₂.books) u = .ok upper t) :
      StripAt data t₂.pos t.pos := by
    obtain ⟨_, t₃, hdiscard, h⟩ := bind_eq_ok.mp h
    cases h
    obtain ⟨_, _, hlower, hvalue⟩ := bind_eq_ok.mp hdiscard
    cases hvalue
    rw [← hu]
    exact strip_ok hlower
  split at h
  · obtain ⟨_, u, hmodify, h⟩ := bind_eq_ok.mp h
    cases hmodify
    exact hlower (u := { t₂ with books := lower }) rfl h
  · exact hlower rfl h

/-- All chunks of a picture that is decoded stand where the sizes say. -/
theorem decode_ok {c c' : Cinepak} (h : decode c data = .ok c') :
    ∃ middle stop, StripAt data 10 middle ∧ StripAt data middle stop := by
  unfold decode at h
  split at h
  · rename_i hpicture
    obtain ⟨middle, hupper, hlower⟩ := picture_ok hpicture
    exact ⟨middle, _, hupper, hlower⟩
  · cases h

/-- Chunks are delimited by their sizes. Wherever reading gets past a chunk, in whatever state and whatever the content
took, it goes on at the end that the chunk's size gives; so all chunks of a picture that is decoded, and its strips, stand
where the sizes say. -/
theorem chunks_delimited (data : ByteArray) :
    (∀ yEnd s total t, chunk data yEnd s = .ok total t → Declares data s.pos total ∧ t.pos = s.pos + total) ∧
      ∀ c c', decode c data = .ok c' → ∃ middle stop, StripAt data 10 middle ∧ StripAt data middle stop := by
  constructor
  · intro yEnd s total t h
    exact chunk_ok h
  · intro c c' h
    exact decode_ok h

/-- A picture whose upper strip has a chunk of eight bytes that takes six more from the strip behind it, and whose lower
strip has one that takes nothing of its three bytes. -/
def greedyPicture : ByteArray :=
  Bytes.ofList ([1, 0, 0, 0] ++ bigWord 320 ++ bigWord 200 ++ bigWord 2 ++
    (bigWord 0x1000 ++ bigWord 20 ++ List.replicate 8 0 ++ (bigWord 0x2300 ++ bigWord 8 ++ bigLong 0x80000000)) ++
    (bigWord 0x1000 ++ bigWord 19 ++ List.replicate 8 0 ++ (bigWord 0x3200 ++ bigWord 7 ++ [1, 2, 3])))

/-- Its chunks take more and less than they say, and yet it is decoded. -/
theorem decode_greedyPicture : ∃ c', decode { frame := ByteArray.empty } greedyPicture = .ok c' := by
  let head := after (header greedyPicture) ⟨0, {}, 0, 0, ByteArray.empty⟩
  let upper := after (stripHead greedyPicture 0) head
  let middle := after (chunk greedyPicture 0) upper
  let lower := after (stripHead greedyPicture 0) { middle with books := {} }
  have hheader : header greedyPicture ⟨0, {}, 0, 0, ByteArray.empty⟩ = .ok 1 head := ok_after (by decide +kernel)
  have hupper : strip greedyPicture 0 head = .ok 0 middle := by
    have hhead : stripHead greedyPicture 0 head = .ok (0, 8) upper := ok_after (by decide +kernel)
    have hchunk : chunk greedyPicture 0 upper = .ok 8 middle := ok_after (by decide +kernel)
    exact strip_single hhead (by decide) hchunk (by decide)
  have hlower : strip greedyPicture 0 { middle with books := {} } = .ok 0 (after (chunk greedyPicture 0) lower) := by
    have hhead : stripHead greedyPicture 0 { middle with books := {} } = .ok (0, 7) lower := ok_after (by decide +kernel)
    have hchunk : chunk greedyPicture 0 lower = .ok 7 (after (chunk greedyPicture 0) lower) := ok_after (by decide +kernel)
    exact strip_single hhead (by decide) hchunk (by decide)
  have hpicture : picture greedyPicture {} ⟨0, {}, 0, 0, ByteArray.empty⟩ =
      .ok middle.books (after (chunk greedyPicture 0) lower) := by
    rw [picture, bind_of_ok hheader, bind_of_ok hupper]
    refine (bind_of_ok (m := get) rfl).trans ?_
    rw [if_pos (by decide)]
    refine (bind_of_ok (m := modify _) rfl).trans ?_
    have hdiscard : (discard (strip greedyPicture 0) : M Unit) { middle with books := {} } =
        .ok () (after (chunk greedyPicture 0) lower) := bind_of_ok hlower
    exact bind_of_ok hdiscard
  exact ⟨_, by rw [decode, hpicture]⟩

theorem chunks_delimited_greedyPicture :
    (∃ t, chunk greedyPicture 0 ⟨22, {}, 0, 0, ByteArray.empty⟩ = .ok 8 t ∧ t.pos = 30) ∧
      (content greedyPicture 0 0x2300 4).run' ⟨26, {}, 0, 0, ByteArray.empty⟩ = some (-6) ∧
      ∃ c' middle stop, decode { frame := ByteArray.empty } greedyPicture = .ok c' ∧
        StripAt greedyPicture 10 middle ∧ StripAt greedyPicture middle stop := by
  obtain ⟨t, hchunk⟩ : ∃ t, chunk greedyPicture 0 ⟨22, {}, 0, 0, ByteArray.empty⟩ = .ok 8 t := of_run (by decide +kernel)
  obtain ⟨-, hpos⟩ := (chunks_delimited greedyPicture).1 _ _ _ _ hchunk
  obtain ⟨c', hdecode⟩ := decode_greedyPicture
  obtain ⟨middle, stop, hupper, hlower⟩ := (chunks_delimited greedyPicture).2 _ _ hdecode
  exact ⟨⟨t, hchunk, hpos⟩, by decide +kernel, c', middle, stop, hdecode, hupper, hlower⟩

end Adventure.Cinepak
