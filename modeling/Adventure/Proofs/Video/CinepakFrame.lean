import Adventure.Proofs.Video.CinepakLoops
import Adventure.Proofs.Video.CinepakPainting
import Adventure.Proofs.Video.CinepakReading

/-! What all steps of a decoder have in common goes over from a few of them, the reading of a byte and changes of the
state, to a whole chunk. So whatever a decoder is given to read, its frame keeps its size: a decoder starts with a frame
of two bytes for each pixel, and has such a frame for good. -/

namespace Adventure.Cinepak

open Loop

variable {data : ByteArray} {yEnd : Nat}

/-- A property of steps that goes over to steps in a row. The changes of the state that have it leave the size of the
frame as it is. -/
structure Closed (data : ByteArray) (P : {α : Type} → M α → Prop) : Prop where
  value {α : Type} (a : α) : P (pure a : M α)
  bind {α β : Type} {m : M α} {f : α → M β} : P m → (∀ a, P (f a)) → P (m >>= f)
  get : P (get : M State)
  byte : P (byte data)
  modify {f : State → State} : (∀ s, (f s).frame.size = s.frame.size) → P (modify f : M Unit)

namespace Closed

variable {P : {α : Type} → M α → Prop} {α β : Type} {m : M α} (hP : Closed data P)
include hP

theorem look {f : State → M α} (hf : ∀ s, P (f s)) : P (MonadState.get >>= f) := hP.bind hP.get hf

omit hP in
theorem ite {c : Prop} [Decidable c] {n : M α} (hm : P m) (hn : P n) : P (if c then m else n) := by
  split
  · exact hm
  · exact hn

/-! ### Reading -/

theorem word : P (word data) := hP.bind hP.byte fun _ => hP.bind hP.byte fun _ => hP.value _

theorem long : P (long data) := hP.bind hP.word fun _ => hP.bind hP.word fun _ => hP.value _

theorem advance (n : Int) : P (advance n) := hP.modify fun _ => rfl

theorem readVector : P (readVector data) :=
  hP.bind hP.byte fun _ => hP.bind hP.byte fun _ => hP.bind hP.byte fun _ => hP.bind hP.byte fun _ =>
    hP.bind hP.byte fun _ => hP.bind hP.byte fun _ => hP.value _

/-! ### Painting -/

theorem put (row column : Nat) (a b c d : UInt8) : P (put row column a b c d) := by
  refine hP.modify fun s => ?_
  dsimp only
  split
  · simp only [Bytes.size_put]
  · rfl

theorem paintV1 (v : PixelVector) : P (paintV1 v) :=
  hP.bind (hP.put ..) fun _ => hP.bind (hP.put ..) fun _ => hP.bind (hP.put ..) fun _ => hP.bind (hP.put ..) fun _ =>
    hP.bind (hP.put ..) fun _ => hP.bind (hP.put ..) fun _ => hP.bind (hP.put ..) fun _ => hP.put ..

theorem paintQuarter (row column : Nat) (q : PixelVector) : P (paintQuarter row column q) :=
  hP.bind (hP.put ..) fun _ => hP.put ..

theorem paintV4 (a b c d : PixelVector) : P (paintV4 a b c d) :=
  hP.bind (hP.paintQuarter ..) fun _ => hP.bind (hP.paintQuarter ..) fun _ => hP.bind (hP.paintQuarter ..) fun _ =>
    hP.paintQuarter ..

theorem nextBlock : P nextBlock := by
  refine hP.modify fun s => ?_
  split <;> rfl

theorem blockV1 : P (blockV1 data) := hP.bind hP.byte fun _ => hP.look fun _ => hP.paintV1 _

theorem blockV4 : P (blockV4 data) :=
  hP.bind hP.byte fun _ => hP.bind hP.byte fun _ => hP.bind hP.byte fun _ => hP.bind hP.byte fun _ =>
    hP.look fun _ => hP.paintV4 ..

/-! ### Books -/

theorem setVector (book : Book) (i : Nat) (v : PixelVector) : P (setVector book i v) := by
  refine hP.modify fun s => ?_
  split <;> rfl

theorem fullBook (book : Book) (i n : Nat) : P (fullBook data book i n) := by
  induction n generalizing i with
  | zero => exact hP.value _
  | succ n ih => exact hP.bind hP.readVector fun _ => hP.bind (hP.setVector ..) fun _ => ih _

theorem maskedEntries (book : Book) (mask : UInt32) (i : Nat) (size : Int) (n : Nat) :
    P (maskedEntries data book mask i size n) := by
  induction n generalizing i size with
  | zero => exact hP.value _
  | succ n ih =>
    exact ite (hP.bind hP.readVector fun _ => hP.bind (hP.setVector ..) fun _ => ih _ _) (ih _ _)

theorem maskedBook (book : Book) (fuel i : Nat) (size : Int) : P (maskedBook data book fuel i size) := by
  induction fuel generalizing i size with
  | zero => exact hP.value _
  | succ fuel ih => exact ite (hP.value _) (hP.bind hP.long fun _ => hP.bind (hP.maskedEntries ..) fun _ => ih _ _)

/-! ### Blocks -/

theorem inStrip : P (inStrip yEnd) := hP.look fun _ => hP.value _

theorem maskedBlocks (mask : UInt32) (size : Int) (n : Nat) : P (maskedBlocks data yEnd mask size n) := by
  induction n generalizing size with
  | zero => exact hP.value _
  | succ n ih =>
    exact hP.bind hP.inStrip fun _ => ite (hP.value _) <|
      ite (hP.bind hP.blockV4 fun _ => hP.bind hP.nextBlock fun _ => ih _)
        (hP.bind hP.blockV1 fun _ => hP.bind hP.nextBlock fun _ => ih _)

theorem intraBlocks (fuel : Nat) (size : Int) : P (intraBlocks data yEnd fuel size) := by
  induction fuel generalizing size with
  | zero => exact hP.value _
  | succ fuel ih =>
    exact hP.bind hP.inStrip fun _ =>
      ite (hP.value _) (hP.bind hP.long fun _ => hP.bind (hP.maskedBlocks ..) fun _ => ih _)

theorem chosenBlock (four : Bool) : P (chosenBlock data four) :=
  ite (hP.bind hP.blockV4 fun _ => hP.value _) (hP.bind hP.blockV1 fun _ => hP.value _)

theorem interMask (fuel : Nat) (mask : UInt32) (bit : Nat) (size : Int) : P (interMask data yEnd fuel mask bit size) := by
  induction fuel generalizing mask bit size with
  | zero => exact hP.value _
  | succ fuel ih =>
    have chosen (four : Bool) (mask : UInt32) (bit : Nat) (size : Int → Int) : P (do
        let n ← Cinepak.chosenBlock data four
        Cinepak.nextBlock
        Cinepak.interMask data yEnd fuel mask bit (size n)) :=
      hP.bind (hP.chosenBlock four) fun _ => hP.bind hP.nextBlock fun _ => ih _ _ _
    exact hP.bind hP.inStrip fun _ => ite (hP.value _) <|
      ite (ite (hP.bind hP.long fun _ => chosen _ _ _ _) (chosen _ _ _ _)) (hP.bind hP.nextBlock fun _ => ih _ _ _)

theorem interBlocks (fuel : Nat) (size : Int) : P (interBlocks data yEnd fuel size) := by
  induction fuel generalizing size with
  | zero => exact hP.value _
  | succ fuel ih =>
    exact hP.bind hP.inStrip fun _ =>
      ite (hP.value _) (hP.bind hP.long fun _ => hP.bind (hP.interMask ..) fun _ => ih _)

theorem plainBlocks (fuel : Nat) (size : Int) : P (plainBlocks data yEnd fuel size) := by
  induction fuel generalizing size with
  | zero => exact hP.value _
  | succ fuel ih =>
    exact hP.bind hP.inStrip fun _ =>
      ite (hP.value _) (hP.bind hP.blockV1 fun _ => hP.bind hP.nextBlock fun _ => ih _)

/-! ### Chunks -/

theorem content (kind : UInt16) (size : Int) : P (content data yEnd kind size) := by
  unfold Cinepak.content
  split
  · exact hP.bind (hP.fullBook ..) fun _ => hP.value _
  · exact hP.bind (hP.fullBook ..) fun _ => hP.value _
  · exact hP.maskedBook ..
  · exact hP.maskedBook ..
  · exact hP.intraBlocks ..
  · exact hP.interBlocks ..
  · exact hP.plainBlocks ..
  · exact hP.value _

theorem chunk : P (chunk data yEnd) :=
  hP.bind hP.word fun _ => hP.bind hP.word fun _ => hP.bind (hP.content ..) fun _ => hP.bind (hP.advance _) fun _ => hP.value _

theorem chunkRound (size : Int) : P (chunkRound data yEnd size) :=
  ite (hP.bind hP.chunk fun _ => hP.value _) (hP.value _)

end Closed

/-! ### The size of the frame -/

/-- Whether it succeeds or fails, a step leaves the size of the frame as it is. -/
def KeepsSize {α : Type} (m : M α) : Prop := Leaves (fun s : State => s.frame.size) m

namespace KeepsSize

variable {α β : Type} {m : M α}

theorem value (a : α) : KeepsSize (pure a : M α) := (Chains.same _).value a

theorem bind {f : α → M β} (hm : KeepsSize m) (hf : ∀ a, KeepsSize (f a)) : KeepsSize (m >>= f) := (Chains.same _).bind hm hf

theorem look {f : State → M α} (hf : ∀ s, KeepsSize (f s)) : KeepsSize (get >>= f) := (Chains.same _).look hf

theorem fault (e : VideoError) : KeepsSize (throw e : M α) := (Chains.same _).fault e

theorem modify {f : State → State} (hf : ∀ s, (f s).frame.size = s.frame.size) : KeepsSize (modify f : M Unit) := hf

theorem discard (hm : KeepsSize m) : KeepsSize (discard m) := hm.bind fun _ => value _

theorem closed : Closed data KeepsSize where
  value := value
  bind := bind
  get := (Chains.same _).get
  byte := fun _ => leads_byte (fun _ => rfl) rfl
  modify := modify

theorem word : KeepsSize (word data) := closed.word

theorem advance (n : Int) : KeepsSize (advance n) := modify fun _ => rfl

/-- However often a step is repeated, the size stays. -/
theorem rounds {σ ρ : Type} {step : σ → M (σ ⊕ ρ)} (hstep : ∀ a, KeepsSize (step a)) {n : Nat} {a b : σ} {s t : State}
    (h : Rounds step n a s b t) : t.frame.size = s.frame.size := by
  induction h with
  | none => rfl
  | next hround _ ih => exact ih.trans ((hstep _ _).of_ok hround)

theorem chunks (size : Int) : KeepsSize (chunks data yEnd size) := by
  intro s
  unfold Leads Cinepak.chunks
  cases h : s.loop? (chunkRound data yEnd) size with
  | none => rfl
  | some out =>
    obtain ⟨n, left, t, hrounds, hlast⟩ := loop?_eq_some_iff.mp h
    have hsize := rounds closed.chunkRound hrounds
    have hround := (closed.chunkRound left : KeepsSize (chunkRound data yEnd left)) t
    cases hlast with
    | result hstep =>
      rw [Leads, hstep] at hround
      exact hround.trans hsize
    | fault hstep =>
      rw [Leads, hstep] at hround
      exact hround.trans hsize

theorem strip (yStart : Nat) : KeepsSize (strip data yStart) :=
  word.discard.bind fun _ => word.bind fun _ => word.discard.bind fun _ => word.discard.bind fun _ => word.bind fun _ =>
    word.discard.bind fun _ => bind (.modify fun _ => rfl) fun _ => (chunks _).bind fun _ => value _

theorem header : KeepsSize (header data) :=
  closed.byte.bind fun _ => (advance _).bind fun _ => word.bind fun _ => word.bind fun _ => word.bind fun _ =>
    Closed.ite ((fault _).bind fun _ => value _) (value _)

theorem picture (lower : Codebooks) : KeepsSize (picture data lower) := by
  have lowerStrip (yEnd : Nat) (upper : Codebooks) : KeepsSize (do
      Functor.discard (Cinepak.strip data yEnd)
      return upper : M Codebooks) := (strip _).discard.bind fun _ => value _
  exact header.bind fun _ => (strip _).bind fun _ => look fun _ =>
    Closed.ite (bind (.modify fun _ => rfl) fun _ => lowerStrip _ _) (lowerStrip _ _)

end KeepsSize

/-- A decoder that reads a picture, well written or not, has a frame as large as before. -/
theorem size_decode {c c' : Cinepak} (h : decode c data = .ok c') : c'.frame.size = c.frame.size := by
  unfold decode at h
  split at h
  · rename_i upper s hread
    cases h
    exact (KeepsSize.picture c.lower _).of_ok hread
  · cases h

theorem size_foldlM_decode {l : List ByteArray} {c c' : Cinepak} (h : l.foldlM decode c = .ok c') :
    c'.frame.size = c.frame.size := by
  induction l generalizing c with
  | nil => cases h; rfl
  | cons data l ih =>
    rw [List.foldlM_cons] at h
    obtain ⟨d, hd, h⟩ := except_bind_eq_ok.mp h
    exact (ih h).trans (size_decode hd)

theorem size_frame_new : ({} : Cinepak).frame.size = frameBytes := by
  dsimp only
  rw [Bytes.size_replicate]
  rfl

/-- Every decoder that a cutscene can come to has a frame of two bytes for each pixel. -/
theorem size_frame_reached {l : List ByteArray} {c : Cinepak} (h : l.foldlM decode {} = .ok c) : c.frame.size = frameBytes :=
  (size_foldlM_decode h).trans size_frame_new

end Adventure.Cinepak
