import Adventure.Proofs.Video.CinepakChunks
import Adventure.Proofs.Video.CinepakFrame

/-! Where decoding comes to an end. The loops over the content of a chunk make no more rounds than its size allows. A
round of the loop over the chunks of a strip takes some of the size and goes on in the data, or it reads a chunk without
any size: then it changes nothing, and comes again for good. So a picture is decoded, or refused, just when no such
chunk is met. -/

namespace Adventure.Cinepak

open Loop

variable {data : ByteArray} {yEnd : Nat} {size : Int}

/-! ### What is left of a size -/

/-- Where the step gives what is left of a size, there is not more than before. -/
def Falls (size : Int) (m : M Int) : Prop := ∀ s, Leads m s (fun left _ => left ≤ size) fun _ => True

namespace Falls

variable {α : Type} {m l : M Int}

theorem value {left : Int} (h : left ≤ size) : Falls size (pure left) := fun _ => h

theorem mono {more : Int} (hm : Falls size m) (h : size ≤ more) : Falls more m := fun s =>
  (hm s).mono (fun _ _ hleft => Int.le_trans hleft h) fun _ => id

/-- What comes first gives a value that passes a test. -/
theorem after {n : M α} {p : α → Prop} {f : α → M Int} (hn : ∀ s, Leads n s (fun a _ => p a) fun _ => True)
    (hf : ∀ a, p a → Falls size (f a)) : Falls size (n >>= f) := fun s =>
  Leads.bind ((hn s).mono (fun a t ha => hf a ha t) fun _ => id)

theorem bind {n : M α} {f : α → M Int} (hf : ∀ a, Falls size (f a)) : Falls size (n >>= f) :=
  after (within_anyhow n) fun a _ => hf a

theorem ite {c : Prop} [Decidable c] (hm : Falls size m) (hl : Falls size l) : Falls size (if c then m else l) := by
  split
  · exact hm
  · exact hl

theorem of_ok {s t : State} {left : Int} (hm : Falls size m) (h : m s = .ok left t) : left ≤ size := (hm s).of_ok h

theorem maskedEntries (book : Book) (mask : UInt32) (i n : Nat) : Falls size (maskedEntries data book mask i size n) := by
  induction n generalizing i size with
  | zero => exact value (Int.le_refl _)
  | succ n ih => exact ite (bind fun _ => bind fun _ => (ih _).mono (by omega)) (ih _)

theorem maskedBlocks (mask : UInt32) (n : Nat) : Falls size (maskedBlocks data yEnd mask size n) := by
  induction n generalizing size with
  | zero => exact value (Int.le_refl _)
  | succ n ih =>
    exact bind fun _ => ite (value (Int.le_refl _)) <|
      ite (bind fun _ => bind fun _ => ih.mono (by omega)) (bind fun _ => bind fun _ => ih.mono (by omega))

end Falls

/-- A block takes at least a byte. -/
theorem chosenBlock_pos (four : Bool) (s : State) : Leads (chosenBlock data four) s (fun n _ => 1 ≤ n) fun _ => True := by
  have given {m : M Unit} {n : Int} (hn : 1 ≤ n) : Leads (m >>= fun _ => pure n) s (fun n _ => 1 ≤ n) fun _ => True :=
    Leads.bind ((within_anyhow m s).mono (fun _ _ _ => hn) fun _ => id)
  cases four with
  | false => exact given (by decide)
  | true => exact given (by decide)

theorem Falls.interMask (fuel : Nat) (mask : UInt32) (bit : Nat) : Falls size (interMask data yEnd fuel mask bit size) := by
  induction fuel generalizing mask bit size with
  | zero => exact value (Int.le_refl _)
  | succ fuel ih =>
    refine bind fun _ => ite (value (Int.le_refl _)) (ite (ite (bind fun mask => ?_) ?_) (bind fun _ => ih _ _))
    · exact after (chosenBlock_pos _) fun _ hn => bind fun _ => (ih _ _).mono (by omega)
    · exact after (chosenBlock_pos _) fun _ hn => bind fun _ => (ih _ _).mono (by omega)

/-! ### The content of a chunk -/

/-- A mask of a book, as long as there is something left of the size. -/
def bookRound (data : ByteArray) (book : Book) (i : Nat) (size : Int) : M ((Nat × Int) ⊕ Int) := do
  if size ≤ 0 then return .inr size
  let mask ← long data
  let left ← maskedEntries data book mask i (size - 4) 32
  return .inl (i + 32, left)

/-- A bit of a mask, or two, as long as there are any, and blocks and bytes left. -/
def bitRound (data : ByteArray) (yEnd : Nat) : UInt32 × Nat × Int → M ((UInt32 × Nat × Int) ⊕ Int)
  | (mask, bit, size) => do
    if 32 ≤ bit ∨ size < 0 ∨ !(← inStrip yEnd) then return .inr size
    if maskBit mask bit then
      if bit + 1 = 32 then
        let mask ← long data
        let n ← chosenBlock data (maskBit mask 0)
        nextBlock
        return .inl (mask, 1, size - 4 - n)
      else
        let n ← chosenBlock data (maskBit mask (bit + 1))
        nextBlock
        return .inl (mask, bit + 2, size - n)
    else
      nextBlock
      return .inl (mask, bit + 1, size)

/-- Blocks that are read by `read`, as long as there are any, and bytes left. -/
def blocksRound (yEnd : Nat) (read : M Int) (size : Int) : M ((Nat × Int) ⊕ Int) := do
  if size ≤ 0 ∨ !(← inStrip yEnd) then return .inr size
  return .inl (0, ← read)

/-- A round of the loop over the content of a chunk of some kind: from entry `i` of a book on, or from the next block,
with `size` bytes left. Other content is read at once. -/
def contentRound (data : ByteArray) (yEnd : Nat) (kind : UInt16) : Nat × Int → M ((Nat × Int) ⊕ Int)
  | (i, size) =>
    match kind with
    | 0x2100 => bookRound data .v4 i size
    | 0x2300 => bookRound data .v1 i size
    | 0x3000 => blocksRound yEnd (do maskedBlocks data yEnd (← long data) (size - 4) 32) size
    | 0x3100 => blocksRound yEnd (do interMask data yEnd (33 * (size.toNat + 1)) (← long data) 0 (size - 4)) size
    | 0x3200 => blocksRound yEnd (do blockV1 data; nextBlock; return size - 1) size
    | _ => do return .inr (← content data yEnd kind size)

variable {s t : State}

theorem book_ends (data : ByteArray) (book : Book) (size : Int) (s : State) :
    ∃ n ≤ size.toNat, Outcome (fun a : Nat × Int => bookRound data book a.1 a.2) n (0, size) s
      (maskedBook data book (size.toNat + 1) 0 size s) := by
  refine outcome_of_rank (a := (0, size)) (fun n a => maskedBook data book n a.1 a.2) (fun a => a.2.toNat) ?_ ?_
    (Nat.lt_succ_self _) s
  · intro n a
    rw [maskedBook, bookRound]
    split <;> simp
  · intro a u b v h
    unfold bookRound at h
    split at h
    · cases h
    · obtain ⟨mask, w, -, h⟩ := bind_eq_ok.mp h
      obtain ⟨left, x, hleft, h⟩ := bind_eq_ok.mp h
      cases h
      have hfalls := (Falls.maskedEntries book mask a.1 32).of_ok hleft
      dsimp only
      omega

theorem blocks_ends {f : Nat → Int → M Int} (read : Int → M Int)
    (hround : ∀ n size, f (n + 1) size = inStrip yEnd >>= fun inside =>
      if size ≤ 0 ∨ !inside then pure size else read size >>= f n)
    (hread : ∀ size, Falls (size - 1) (read size)) (size : Int) (s : State) :
    ∃ n ≤ size.toNat, Outcome (fun a : Nat × Int => blocksRound yEnd (read a.2) a.2) n (0, size) s
      (f (size.toNat + 1) size s) := by
  refine outcome_of_rank (a := (0, size)) (fun n a => f n a.2) (fun a => a.2.toNat) ?_ ?_ (Nat.lt_succ_self _) s
  · intro n a
    rw [hround, blocksRound, bind_assoc]
    refine congrArg (inStrip yEnd >>= ·) (funext fun inside => ?_)
    split <;> simp
  · intro a u b v h
    obtain ⟨inside, w, -, h⟩ := bind_eq_ok.mp h
    split at h
    · cases h
    · obtain ⟨left, x, hleft, h⟩ := bind_eq_ok.mp h
      cases h
      have hfalls := (hread a.2).of_ok hleft
      dsimp only
      omega

/-- How many rounds the bits of masks can make: as many as there are bits for each byte. -/
def bitRank (a : UInt32 × Nat × Int) : Nat := 32 * (a.2.2 + 1).toNat + (32 - a.2.1)

theorem bitRound_lower (data : ByteArray) (yEnd : Nat) (a : UInt32 × Nat × Int) (s : State) (b : UInt32 × Nat × Int)
    (t : State) (h : bitRound data yEnd a s = .ok (.inl b) t) : bitRank b < bitRank a := by
  obtain ⟨mask, bit, size⟩ := a
  obtain ⟨inside, u, -, h⟩ := bind_eq_ok.mp h
  split at h
  · cases h
  · rename_i hmore
    have hbit : bit < 32 ∧ 0 ≤ size := by omega
    -- a block takes a byte at least, so that the bits of another mask do not count
    have given {four : Bool} {v w : State} {n : Int} (h : chosenBlock data four v = .ok n w) : 1 ≤ n :=
      (chosenBlock_pos four v).of_ok h
    split at h
    · split at h
      · obtain ⟨mask', v, -, h⟩ := bind_eq_ok.mp h
        obtain ⟨n, w, hn, h⟩ := bind_eq_ok.mp h
        obtain ⟨_, x, -, h⟩ := bind_eq_ok.mp h
        cases h
        have hn := given hn
        simp only [bitRank]
        omega
      · obtain ⟨n, w, hn, h⟩ := bind_eq_ok.mp h
        obtain ⟨_, x, -, h⟩ := bind_eq_ok.mp h
        cases h
        have hn := given hn
        simp only [bitRank]
        omega
    · obtain ⟨_, x, -, h⟩ := bind_eq_ok.mp h
      cases h
      simp only [bitRank]
      omega

/-- The masks of blocks that may be skipped are read to their end as well. -/
theorem bits_end (data : ByteArray) (yEnd : Nat) (mask : UInt32) (size : Int) (s : State) :
    ∃ n ≤ 32 * (size.toNat + 1), Outcome (bitRound data yEnd) n (mask, 0, size - 4) s
      (interMask data yEnd (33 * (size.toNat + 1)) mask 0 (size - 4) s) := by
  have hrank : bitRank (mask, 0, size - 4) ≤ 32 * (size.toNat + 1) := by
    simp only [bitRank]
    omega
  have hfuel : bitRank (mask, 0, size - 4) < 33 * (size.toNat + 1) := by omega
  have hround (n : Nat) (a : UInt32 × Nat × Int) : interMask data yEnd (n + 1) a.1 a.2.1 a.2.2 =
      bitRound data yEnd a >>= Sum.elim (fun b => interMask data yEnd n b.1 b.2.1 b.2.2) pure := by
    rw [interMask, bitRound, bind_assoc]
    refine congrArg (inStrip yEnd >>= ·) (funext fun inside => ?_)
    split
    · simp
    · split
      · split <;> simp [bind_assoc]
      · simp
  obtain ⟨n, hn, houtcome⟩ := outcome_of_rank (fun n a => interMask data yEnd n a.1 a.2.1 a.2.2) bitRank hround
    (bitRound_lower data yEnd) hfuel s
  exact ⟨n, Nat.le_trans hn hrank, houtcome⟩

/-- The content of a chunk is read to its end, in no more rounds than it has bytes. -/
theorem content_ends (data : ByteArray) (yEnd : Nat) (kind : UInt16) (size : Int) (s : State) :
    ∃ n ≤ size.toNat, Outcome (contentRound data yEnd kind) n (0, size) s (content data yEnd kind size s) := by
  have once {m : M Int} (hround : contentRound data yEnd kind (0, size) = m >>= fun left => pure (.inr left)) :
      ∃ n ≤ size.toNat, Outcome (contentRound data yEnd kind) n (0, size) s (m s) := by
    refine ⟨0, Nat.zero_le _, (0, size), s, .none, ?_⟩
    cases h : m s with
    | ok left t => exact .result (by rw [hround]; exact bind_of_ok h)
    | error e t => exact .fault (by rw [hround]; exact bind_eq_error.mpr (.inl h))
  unfold content
  split
  · exact once rfl
  · exact once rfl
  · exact book_ends data .v4 size s
  · exact book_ends data .v1 size s
  · refine blocks_ends (fun size => do maskedBlocks data yEnd (← long data) (size - 4) 32) (fun n size => ?_) (fun size => ?_) size s
    · simp only [intraBlocks, bind_assoc]
    · exact .bind fun _ => (Falls.maskedBlocks _ _).mono (by omega)
  · refine blocks_ends (fun size => do interMask data yEnd (33 * (size.toNat + 1)) (← long data) 0 (size - 4))
      (fun n size => ?_) (fun size => ?_) size s
    · simp only [interBlocks, bind_assoc]
    · exact .bind fun _ => (Falls.interMask _ _ _).mono (by omega)
  · refine blocks_ends (fun size => do blockV1 data; nextBlock; return size - 1) (fun n size => ?_) (fun size => ?_) size s
    · simp only [plainBlocks, bind_assoc, pure_bind]
    · exact .bind fun _ => .bind fun _ => .value (Int.le_refl _)
  · refine once ?_
    unfold contentRound content
    dsimp only
    split
    case h_6 => split <;> first | contradiction | rfl
    all_goals contradiction

/-! ### Chunks -/

theorem content_empty (data : ByteArray) (yEnd : Nat) (kind : UInt16) (s : State) :
    content data yEnd kind (-4) s = .ok (-4) s := by
  unfold content
  split <;> rfl

/-- A chunk without any size leaves everything as it is. -/
theorem chunk_empty (h : Declares data s.pos 0) : chunk data yEnd s = .ok 0 s := by
  obtain ⟨kind, w, hholds, hw⟩ := h
  have hkind : word data s = .ok kind { s with pos := s.pos + 2 } := takes_word kind s s.pos hholds.left
  have htotal : word data { s with pos := s.pos + 2 } = .ok w { s with pos := s.pos + 4 } :=
    takes_word w s (s.pos + 2) hholds.right
  have hback : advance (-4) { s with pos := s.pos + 4 } = .ok () s := by
    show EStateM.Result.ok () { s with pos := (((s.pos + 4 : Nat) : Int) + -4).toNat } = .ok () s
    rw [show (((s.pos + 4 : Nat) : Int) + -4).toNat = s.pos by omega]
  rw [chunk, bind_of_ok hkind, bind_of_ok htotal, hw]
  exact (bind_of_ok (content_empty data yEnd kind _)).trans (bind_of_ok hback)

/-- A round that is followed by another takes a whole chunk from the size, and goes on behind the chunk; only a chunk
without any size leaves everything as it is. -/
theorem chunkRound_moves {left : Int} (h : chunkRound data yEnd size s = .ok (.inl left) t) :
    0 < size ∧ ∃ total, Declares data s.pos total ∧ left = size - total ∧ t.pos = s.pos + total ∧ (total = 0 → t = s) := by
  obtain ⟨hsize, total, hchunk, rfl⟩ := chunkRound_goes.mp h
  obtain ⟨hdeclares, hpos⟩ := chunk_ok hchunk
  refine ⟨hsize, total, hdeclares, rfl, hpos, ?_⟩
  rintro rfl
  rw [chunk_empty hdeclares] at hchunk
  cases hchunk
  rfl

/-- Reading comes to a chunk without any size, with something left of the size of the strip. -/
def MeetsEmpty (data : ByteArray) (yEnd : Nat) (size : Int) (s : State) : Prop :=
  ∃ n left t, Rounds (chunkRound data yEnd) n size s left t ∧ 0 < left ∧ Declares data t.pos 0

/-- Where no such chunk is met there are no more chunks than bytes. -/
theorem chunks_end (h : ¬ MeetsEmpty data yEnd size s) :
    ∃ n ≤ size.toNat, ∃ out, Outcome (chunkRound data yEnd) n size s out := by
  generalize hrank : size.toNat = rank
  induction rank using Nat.strongRecOn generalizing size s with
  | ind rank ih =>
    obtain ⟨left, t, hgoes⟩ | ⟨out, hlast⟩ := goes_or_stops (chunkRound data yEnd) size s
    · obtain ⟨hsize, total, hdeclares, rfl, -, -⟩ := chunkRound_moves hgoes
      have htotal : total ≠ 0 := by
        rintro rfl
        exact h ⟨0, size, s, .none, hsize, hdeclares⟩
      have hrest : ¬ MeetsEmpty data yEnd (size - total) t := by
        rintro ⟨n, left, u, hrounds, hleft, hempty⟩
        exact h ⟨n + 1, left, u, .next hgoes hrounds, hleft, hempty⟩
      obtain ⟨n, hn, out, left, u, hrounds, hlast⟩ := ih (size - total).toNat (by omega) hrest rfl
      exact ⟨n + 1, by omega, out, left, u, .next hgoes hrounds, hlast⟩
    · exact ⟨0, Nat.zero_le _, out, size, s, .none, hlast⟩

/-- The chunks of a strip have no end just when such a chunk is met. -/
theorem loop?_chunks_eq_none : s.loop? (chunkRound data yEnd) size = none ↔ MeetsEmpty data yEnd size s := by
  constructor
  · intro h
    by_contra hmeets
    obtain ⟨n, -, out, houtcome⟩ := chunks_end hmeets
    rw [loop?_eq_some_iff.mpr ⟨n, houtcome⟩] at h
    cases h
  · rintro ⟨n, left, t, hrounds, hleft, hempty⟩
    rw [loop?_of_rounds hrounds]
    refine loop?_of_stay (chunkRound_goes.mpr ⟨hleft, 0, chunk_empty hempty, ?_⟩)
    omega

/-! ### Pictures -/

/-- Where the step fails the data has come to an end. -/
def FailsAtEnd {α : Type} (m : M α) : Prop := ∀ s e t, m s = .error e t → ∃ i, e = .pictureEnd i

theorem FailsAtEnd.closed : Closed data FailsAtEnd where
  value _ _ _ _ h := nomatch h
  bind hm hf s e t h := by
    obtain h | ⟨a, u, -, h⟩ := bind_eq_error.mp h
    · exact hm s e t h
    · exact hf a u e t h
  get _ _ _ h := nomatch h
  byte s e t h := by
    unfold byte at h
    split at h
    · cases h
    · cases h
      exact ⟨s.pos, rfl⟩
  modify _ _ _ _ h := nomatch h

theorem FailsAtEnd.stripHead (yStart : Nat) : FailsAtEnd (stripHead data yStart) := by
  have hP : Closed data FailsAtEnd := closed
  have hskip : FailsAtEnd (discard (word data)) := hP.bind hP.word fun _ => hP.value _
  exact hP.bind hskip fun _ => hP.bind hP.word fun _ => hP.bind hskip fun _ => hP.bind hskip fun _ => hP.bind hP.word fun _ =>
    hP.bind hskip fun _ => hP.bind (hP.modify fun _ => rfl) fun _ => hP.value _

/-- A strip fails where its head or a chunk of it does, and it never ends where its chunks do not. -/
theorem strip_error {yStart : Nat} {e : VideoError} (h : strip data yStart s = .error e t) :
    (∃ i, e = .pictureEnd i) ∨ e = .endless ∧
      ∃ yEnd size u, stripHead data yStart s = .ok (yEnd, size) u ∧ u.loop? (chunkRound data yEnd) size = none := by
  rw [strip_eq] at h
  obtain h | ⟨⟨yEnd, size⟩, u, hhead, h⟩ := bind_eq_error.mp h
  · exact .inl (FailsAtEnd.stripHead yStart _ _ _ h)
  · obtain h | ⟨_, v, -, h⟩ := bind_eq_error.mp h
    · unfold chunks at h
      cases hloop : u.loop? (chunkRound data yEnd) size with
      | none =>
        rw [hloop] at h
        cases h
        exact .inr ⟨rfl, yEnd, size, _, hhead, hloop⟩
      | some out =>
        rw [hloop] at h
        obtain rfl : out = .error e t := h
        obtain ⟨n, left, v, -, hlast⟩ := loop?_eq_some_iff.mp hloop
        cases hlast with
        | fault hround => exact .inl (FailsAtEnd.closed.chunkRound left _ _ _ hround)
    · cases h

theorem strip_endless {yStart : Nat} (hhead : stripHead data yStart s = .ok (yEnd, size) t)
    (hloop : t.loop? (chunkRound data yEnd) size = none) : strip data yStart s = .error .endless t := by
  have hchunks : chunks data yEnd size t = .error .endless t := by
    rw [chunks, hloop]
    rfl
  rw [strip_eq, bind_of_ok hhead]
  exact bind_eq_error.mpr (.inl hchunks)

/-- Decoding comes to the chunks of a strip that ends in the row `yEnd`: to `size` bytes of them, in the given state. -/
inductive Opens (c : Cinepak) (data : ByteArray) : Nat → Int → State → Prop
  | upper {flags : UInt8} {yEnd : Nat} {size : Int} {s t : State} :
      header data ⟨0, c.upper, 0, 0, c.frame⟩ = .ok flags s → stripHead data 0 s = .ok (yEnd, size) t →
      Opens c data yEnd size t
  | lower {flags : UInt8} {middle yEnd : Nat} {size : Int} {s t u : State} :
      header data ⟨0, c.upper, 0, 0, c.frame⟩ = .ok flags s → strip data 0 s = .ok middle t →
      stripHead data middle (if flags &&& 1 ≠ 0 then { t with books := c.lower } else t) = .ok (yEnd, size) u →
      Opens c data yEnd size u

/-- A picture is decoded, or it is refused: it has the wrong format, or ends too early. -/
def Answers (c : Cinepak) (data : ByteArray) : Prop :=
  (∃ c', decode c data = .ok c') ∨ (∃ w h strips, decode c data = .error (.pictureFormat w h strips)) ∨
    ∃ i, decode c data = .error (.pictureEnd i)

theorem header_error {e : VideoError} (h : header data s = .error e t) :
    (∃ w h strips, e = .pictureFormat w h strips) ∨ ∃ i, e = .pictureEnd i := by
  have hP : Closed data FailsAtEnd := FailsAtEnd.closed
  obtain h | ⟨flags, u, -, h⟩ := bind_eq_error.mp h
  · exact .inr (hP.byte _ _ _ h)
  obtain h | ⟨_, v, -, h⟩ := bind_eq_error.mp h
  · exact .inr (hP.advance 3 _ _ _ h)
  obtain h | ⟨w, u, -, h⟩ := bind_eq_error.mp h
  · exact .inr (hP.word _ _ _ h)
  obtain h | ⟨height, v, -, h⟩ := bind_eq_error.mp h
  · exact .inr (hP.word _ _ _ h)
  obtain h | ⟨strips, u, -, h⟩ := bind_eq_error.mp h
  · exact .inr (hP.word _ _ _ h)
  split at h
  · cases h
    exact .inl ⟨w, height, strips, rfl⟩
  · cases h

/-- Behind the upper strip the lower one is all that is left. -/
theorem picture_eq {lower : Codebooks} {flags : UInt8} {middle : Nat} {s₀ : State} (hheader : header data s₀ = .ok flags s)
    (hupper : strip data 0 s = .ok middle t) :
    picture data lower s₀ = (strip data middle >>= fun _ => pure t.books)
      (if flags &&& 1 ≠ 0 then { t with books := lower } else t) := by
  rw [picture, bind_of_ok hheader, bind_of_ok hupper]
  refine (bind_of_ok (m := get) rfl).trans ?_
  have hlower (u : State) : (discard (strip data middle) >>= fun _ => pure t.books : M Codebooks) u =
      (strip data middle >>= fun _ => pure t.books) u := by
    simp only [Functor.discard, Functor.mapConst, Function.comp, bind, EStateM.bind, EStateM.map]
    cases strip data middle u <;> rfl
  split
  · exact hlower { t with books := lower }
  · exact hlower t

/-- What a picture is refused for, if it has an end. -/
theorem decode_error {c : Cinepak} {e : VideoError} (h : decode c data = .error e) :
    (∃ w h strips, e = .pictureFormat w h strips) ∨ (∃ i, e = .pictureEnd i) ∨
      ∃ yEnd size s, Opens c data yEnd size s ∧ MeetsEmpty data yEnd size s := by
  unfold decode at h
  cases hpicture : picture data c.lower ⟨0, c.upper, 0, 0, c.frame⟩ with
  | ok upper t =>
    rw [hpicture] at h
    cases h
  | error e' t =>
    rw [hpicture] at h
    cases h
    cases hheader : header data ⟨0, c.upper, 0, 0, c.frame⟩ with
    | error e' s =>
      have hfirst : picture data c.lower ⟨0, c.upper, 0, 0, c.frame⟩ = .error e' s := bind_eq_error.mpr (.inl hheader)
      rw [hfirst] at hpicture
      cases hpicture
      exact (header_error hheader).imp id .inl
    | ok flags s =>
      cases hupper : strip data 0 s with
      | error e' u =>
        have hsecond : picture data c.lower ⟨0, c.upper, 0, 0, c.frame⟩ = .error e' u :=
          bind_eq_error.mpr (.inr ⟨flags, s, hheader, bind_eq_error.mpr (.inl hupper)⟩)
        rw [hsecond] at hpicture
        cases hpicture
        obtain h | ⟨rfl, yEnd, size, v, hhead, hloop⟩ := strip_error hupper
        · exact .inr (.inl h)
        · exact .inr (.inr ⟨yEnd, size, v, .upper hheader hhead, loop?_chunks_eq_none.mp hloop⟩)
      | ok middle u =>
        rw [picture_eq hheader hupper] at hpicture
        obtain hlower | ⟨_, v, -, hvalue⟩ := bind_eq_error.mp hpicture
        · obtain h | ⟨rfl, yEnd, size, v, hhead, hloop⟩ := strip_error hlower
          · exact .inr (.inl h)
          · exact .inr (.inr ⟨yEnd, size, v, .lower hheader hupper hhead, loop?_chunks_eq_none.mp hloop⟩)
        · cases hvalue

theorem decode_endless {c : Cinepak} {s : State} (hopens : Opens c data yEnd size s) (hmeets : MeetsEmpty data yEnd size s) :
    decode c data = .error .endless := by
  have hloop := loop?_chunks_eq_none.mpr hmeets
  have hpicture : picture data c.lower ⟨0, c.upper, 0, 0, c.frame⟩ = .error .endless s := by
    cases hopens with
    | upper hheader hhead =>
      exact bind_eq_error.mpr (.inr ⟨_, _, hheader, bind_eq_error.mpr (.inl (strip_endless hhead hloop))⟩)
    | lower hheader hupper hhead =>
      rw [picture_eq hheader hupper]
      exact bind_eq_error.mpr (.inl (strip_endless hhead hloop))
  rw [decode, hpicture]

/-- Decoding comes to an end unless it meets a chunk without any size. The content of every chunk is read in no more
rounds than it has bytes, and each of its masks in no more than it has bits for every byte. A round of the loop over the
chunks of a strip takes a whole chunk from the size and goes on behind it, so that there are no more rounds than bytes;
only a chunk without any size leaves everything as it is. A picture is decoded, or refused for its format or for its end,
just when no such chunk is met in a strip with something left of its size. -/
theorem decode_ends (c : Cinepak) (data : ByteArray) :
    (∀ yEnd kind size s, ∃ n ≤ size.toNat,
        Outcome (contentRound data yEnd kind) n (0, size) s (content data yEnd kind size s)) ∧
      (∀ yEnd mask size s, ∃ n ≤ 32 * (size.toNat + 1), Outcome (bitRound data yEnd) n (mask, 0, size - 4) s
        (interMask data yEnd (33 * (size.toNat + 1)) mask 0 (size - 4) s)) ∧
      (∀ yEnd size s left t, chunkRound data yEnd size s = .ok (.inl left) t → 0 < size ∧
        ∃ total, Declares data s.pos total ∧ left = size - total ∧ t.pos = s.pos + total ∧ (total = 0 → t = s)) ∧
      (∀ yEnd size s, ¬ MeetsEmpty data yEnd size s →
        ∃ n ≤ size.toNat, ∃ out, Outcome (chunkRound data yEnd) n size s out) ∧
      (Answers c data ↔ ∀ yEnd size s, Opens c data yEnd size s → ¬ MeetsEmpty data yEnd size s) := by
  refine ⟨content_ends data, bits_end data, fun _ _ _ _ _ => chunkRound_moves, fun _ _ _ => chunks_end, ?_⟩
  constructor
  · intro hanswers yEnd size s hopens hmeets
    obtain ⟨c', h⟩ | ⟨w, height, strips, h⟩ | ⟨i, h⟩ := hanswers
    all_goals
      rw [decode_endless hopens hmeets] at h
      cases h
  · intro hmeets
    cases h : decode c data with
    | ok c' => exact .inl ⟨c', h⟩
    | error e =>
      obtain ⟨w, height, strips, rfl⟩ | ⟨i, rfl⟩ | ⟨yEnd, size, s, hopens, hempty⟩ := decode_error h
      · exact .inr (.inl ⟨w, height, strips, h⟩)
      · exact .inr (.inr ⟨i, h⟩)
      · exact absurd hempty (hmeets yEnd size s hopens)

/-- A picture that ends with the head of a chunk without any size, in its upper strip. -/
def stuckPicture : ByteArray :=
  Bytes.ofList ([0, 0, 0, 0] ++ bigWord 320 ++ bigWord 200 ++ bigWord 2 ++
    (bigWord 0x1000 ++ bigWord 16 ++ bigWord 0 ++ bigWord 0 ++ bigWord 100 ++ bigWord 320) ++ (bigWord 0x2000 ++ bigWord 0))

/-- Not every picture has an answer: here the loop over the chunks makes as many rounds as one likes, and stays where
it is. -/
theorem not_always_ends : ¬ Answers {} stuckPicture ∧ ∃ s, Opens {} stuckPicture 100 4 s ∧
    ∀ n, Rounds (chunkRound stuckPicture 100) n 4 s 4 s := by
  let head := after (header stuckPicture) ⟨0, {}, 0, 0, ({} : Cinepak).frame⟩
  let inside := after (stripHead stuckPicture 0) head
  have hheader : header stuckPicture ⟨0, {}, 0, 0, ({} : Cinepak).frame⟩ = .ok 0 head := ok_after (by decide +kernel)
  have hhead : stripHead stuckPicture 0 head = .ok (100, 4) inside := ok_after (by decide +kernel)
  have hopens : Opens {} stuckPicture 100 4 inside := .upper hheader hhead
  have hempty : Declares stuckPicture inside.pos 0 := ⟨0x2000, 0, by unfold Bytes.Holds; decide +kernel, rfl⟩
  have hstay : chunkRound stuckPicture 100 4 inside = .ok (.inl 4) inside :=
    chunkRound_goes.mpr ⟨by decide, 0, chunk_empty hempty, rfl⟩
  refine ⟨fun hanswers => ?_, inside, hopens, rounds_of_stay hstay⟩
  have hendless := decode_endless hopens ⟨0, 4, inside, .none, by decide, hempty⟩
  obtain ⟨c', h⟩ | ⟨w, height, strips, h⟩ | ⟨i, h⟩ := hanswers
  all_goals
    rw [hendless] at h
    cases h

/-- A picture without such a chunk. -/
theorem decode_ends_greedyPicture : Answers { frame := ByteArray.empty } greedyPicture ∧
    ∀ yEnd size s, Opens { frame := ByteArray.empty } greedyPicture yEnd size s → ¬ MeetsEmpty greedyPicture yEnd size s := by
  have hanswers : Answers { frame := ByteArray.empty } greedyPicture := .inl decode_greedyPicture
  exact ⟨hanswers, (decode_ends { frame := ByteArray.empty } greedyPicture).2.2.2.2.mp hanswers⟩

end Adventure.Cinepak
