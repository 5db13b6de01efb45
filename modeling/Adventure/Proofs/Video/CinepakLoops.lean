import Adventure.Proofs.Rounds
import Adventure.Video.Cinepak

/-! Loops of a decoder, round by round. A loop has an outcome just when finitely many rounds lead to one, and none just
when every round is followed by another. -/

namespace Adventure.Cinepak

open Loop

variable {σ ρ : Type} {step : σ → M (σ ⊕ ρ)} {a b : σ} {s t u : State} {n : Nat}
  {out : EStateM.Result VideoError State ρ}

theorem loop?_of_stops (h : Stops step a s out) : s.loop? step a = some out := by
  rw [State.loop?]
  cases h with
  | result h => rw [h]
  | fault h => rw [h]

theorem loop?_next (h : step a s = .ok (.inl b) t) : s.loop? step a = t.loop? step b := by
  rw [State.loop?, h]

theorem loop?_of_rounds (h : Rounds step n a s b t) : s.loop? step a = t.loop? step b := by
  induction h with
  | none => rfl
  | next hstep _ ih => rw [loop?_next hstep, ih]

/-- What a loop comes to is the outcome of finitely many rounds. -/
theorem loop?_eq_some_iff : s.loop? step a = some out ↔ ∃ n, Outcome step n a s out := by
  constructor
  · refine State.loop?.partial_correctness step (fun a s out => ∃ n, Outcome step n a s out) (fun f ih a s out h => ?_) a s out
    split at h
    · rename_i b t hstep
      obtain ⟨n, c, u, hrounds, hlast⟩ := ih _ _ _ h
      exact ⟨n + 1, c, u, .next hstep hrounds, hlast⟩
    · rename_i r t hstep
      cases h
      exact ⟨0, a, s, .none, .result hstep⟩
    · rename_i e t hstep
      cases h
      exact ⟨0, a, s, .none, .fault hstep⟩
  · rintro ⟨n, b, t, hrounds, hlast⟩
    rw [loop?_of_rounds hrounds, loop?_of_stops hlast]

/-- A loop comes to nothing just when there is no last round. -/
theorem loop?_eq_none_iff : s.loop? step a = none ↔ ∀ n, ∃ b t, Rounds step n a s b t := by
  constructor
  · intro h n
    induction n generalizing a s with
    | zero => exact ⟨a, s, .none⟩
    | succ n ih =>
      obtain ⟨b, t, hstep⟩ | ⟨out, hlast⟩ := goes_or_stops step a s
      · obtain ⟨c, u, hrounds⟩ := ih (loop?_next hstep ▸ h)
        exact ⟨c, u, .next hstep hrounds⟩
      · rw [loop?_of_stops hlast] at h
        cases h
  · intro h
    refine Option.eq_none_iff_forall_ne_some.mpr fun out hout => ?_
    obtain ⟨n, b, t, hrounds, hlast⟩ := loop?_eq_some_iff.mp hout
    obtain ⟨c, u, hmore⟩ := h (n + 1)
    obtain ⟨d, v, hstep⟩ := hrounds.goes hmore
    exact hlast.last hstep

theorem loop?_of_stay (h : step a s = .ok (.inl a) s) : s.loop? step a = none :=
  loop?_eq_none_iff.mpr fun n => ⟨a, s, rounds_of_stay h n⟩

/-! ### The chunks of a strip -/

variable {data : ByteArray} {yEnd : Nat} {size left : Int}

theorem chunkRound_done (h : size ≤ 0) : chunkRound data yEnd size = pure (.inr ()) := if_neg (by omega)

theorem chunkRound_more (h : 0 < size) :
    chunkRound data yEnd size = chunk data yEnd >>= fun total => pure (.inl (size - total)) := if_pos h

/-- A round is followed by another just when a chunk is read, and takes the whole chunk from the size. -/
theorem chunkRound_goes : chunkRound data yEnd size s = .ok (.inl left) t ↔
    0 < size ∧ ∃ total, chunk data yEnd s = .ok total t ∧ left = size - total := by
  obtain h | h := Int.lt_or_le 0 size
  · rw [chunkRound_more h, bind_eq_ok]
    constructor
    · rintro ⟨total, u, hchunk, hvalue⟩
      cases hvalue
      exact ⟨h, total, hchunk, rfl⟩
    · rintro ⟨-, total, hchunk, rfl⟩
      exact ⟨total, t, hchunk, rfl⟩
  · rw [chunkRound_done h]
    constructor
    · intro hvalue
      cases hvalue
    · rintro ⟨hsize, -⟩
      omega

theorem chunkRound_stops : chunkRound data yEnd size s = .ok (.inr ()) t ↔ size ≤ 0 ∧ s = t := by
  obtain h | h := Int.lt_or_le 0 size
  · rw [chunkRound_more h, bind_eq_ok]
    constructor
    · rintro ⟨total, u, -, hvalue⟩
      cases hvalue
    · rintro ⟨hsize, -⟩
      omega
  · rw [chunkRound_done h]
    constructor
    · intro hvalue
      cases hvalue
      exact ⟨h, rfl⟩
    · rintro ⟨-, rfl⟩
      rfl

theorem chunks_ok : chunks data yEnd size s = .ok () t ↔ s.loop? (chunkRound data yEnd) size = some (.ok () t) := by
  unfold chunks
  cases s.loop? (chunkRound data yEnd) size <;> simp

theorem chunks_done (h : size ≤ 0) (s : State) : chunks data yEnd size s = .ok () s :=
  chunks_ok.mpr (loop?_of_stops (.result (chunkRound_stops.mpr ⟨h, rfl⟩)))

/-- Chunks are read to their end just when there are none, or one and then the others. -/
theorem chunks_ok_iff : chunks data yEnd size s = .ok () t ↔ (size ≤ 0 ∧ s = t) ∨
    0 < size ∧ ∃ total u, chunk data yEnd s = .ok total u ∧ chunks data yEnd (size - total) u = .ok () t := by
  obtain h | h := Int.lt_or_le 0 size
  · rw [chunks_ok]
    cases hchunk : chunk data yEnd s with
    | ok total u =>
      rw [loop?_next (chunkRound_goes.mpr ⟨h, total, hchunk, rfl⟩), ← chunks_ok]
      constructor
      · intro hrest
        exact .inr ⟨h, total, u, rfl, hrest⟩
      · rintro (⟨hsize, -⟩ | ⟨-, _, _, hsame, hrest⟩)
        · omega
        · cases hsame
          exact hrest
    | error e u =>
      have hfault : Stops (chunkRound data yEnd) size s (.error e u) :=
        .fault (by rw [chunkRound_more h]; exact bind_eq_error.mpr (.inl hchunk))
      rw [loop?_of_stops hfault]
      simp [Int.not_le.mpr h]
  · rw [chunks_done h]
    simp [h, Int.not_lt.mpr h]

/-! ### Strips -/

/-- What stands in front of the chunks of a strip: the row where the strip ends, and the size of its chunks. -/
def stripHead (data : ByteArray) (yStart : Nat) : M (Nat × Int) := do
  discard (word data)
  let size := (← word data).toNat
  discard (word data)
  discard (word data)
  let height := (← word data).toNat
  discard (word data)
  modify fun s => { s with x := 0 }
  return (yStart + height, (size : Int) - 12)

theorem strip_eq (data : ByteArray) (yStart : Nat) :
    strip data yStart = stripHead data yStart >>= fun p => chunks data p.1 p.2 >>= fun _ => pure p.1 := by
  simp only [strip, stripHead, bind_assoc, pure_bind]

/-- A strip with one chunk. -/
theorem strip_single {yStart total : Nat} (hhead : stripHead data yStart s = .ok (yEnd, size) t) (hsize : 0 < size)
    (hchunk : chunk data yEnd t = .ok total u) (htotal : size ≤ total) : strip data yStart s = .ok yEnd u := by
  have hchunks : chunks data yEnd size t = .ok () u :=
    chunks_ok_iff.mpr (.inr ⟨hsize, total, u, hchunk, chunks_done (by omega) u⟩)
  rw [strip_eq, bind_of_ok hhead, bind_of_ok hchunks]
  rfl

end Adventure.Cinepak
