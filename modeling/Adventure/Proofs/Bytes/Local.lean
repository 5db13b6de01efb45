import Adventure.Proofs.Bytes.Loops
import Adventure.Proofs.Rounds

/-! Readers that make their values of the bytes that they take, wherever these stand and whatever is around them. What
a run of a loop of such readers has read is known by its bytes, and is read again where these bytes stand. -/

namespace Adventure.Cursor

open Bytes (Holds)
open Loop

variable {ε α β σ ρ : Type}

theorem bytes_ok [OfReadError ε] {n : Nat} {c d : Cursor} {b : ByteArray}
    (h : (bytes n : ReadM ε ByteArray) c = .ok b d) :
    b.size = n ∧ Holds c.data c.pos (Bytes.list b) ∧ d = { c with pos := c.pos + n } := by
  unfold bytes at h
  split at h
  · cases h
  · rename_i hroom
    cases h
    have hroom' : n ≤ c.remaining := Nat.le_of_not_lt hroom
    have hlist : Bytes.list (c.data.extract c.pos (c.pos + n)) = ((Bytes.list c.data).drop c.pos).take n := by
      simp [Bytes.list, List.extract_eq_take_drop]
    unfold remaining at hroom'
    refine ⟨?_, ?_, rfl⟩
    · rw [← Bytes.length_list, hlist, List.length_take, List.length_drop, Bytes.length_list]
      omega
    · rw [Holds, hlist]
      exact List.take_prefix n _

/-- What the reader gives it gives for the bytes up to where it stops. -/
def Local (m : ReadM ε α) : Prop := ∀ ⦃c d : Cursor⦄ ⦃a : α⦄, m c = .ok a d →
  ∃ l, Holds c.data c.pos l ∧ d = { c with pos := c.pos + l.length } ∧ Gives m a l

namespace Local

variable {m n : ReadM ε α} {f : α → ReadM ε β}

theorem value (a : α) : Local (pure a : ReadM ε α) := by
  intro c d b h
  cases h
  exact ⟨[], List.nil_prefix, rfl, .value a⟩

theorem fault (e : ε) : Local (throw e : ReadM ε α) := nofun

theorem bind (hm : Local m) (hf : ∀ a, Local (f a)) : Local (m >>= f) := by
  intro c d b h
  obtain ⟨a, e, hfirst, hrest⟩ := bind_eq_ok.mp h
  obtain ⟨k, hk, rfl, hgives⟩ := hm hfirst
  obtain ⟨l, hl, rfl, hgives'⟩ := hf a hrest
  refine ⟨k ++ l, Holds.append_iff.mpr ⟨hk, hl⟩, ?_, hgives.bind hgives'⟩
  simp only [List.length_append, Nat.add_assoc]

theorem map (g : α → β) (hm : Local m) : Local (m >>= fun a => pure (g a)) := hm.bind fun a => value (g a)

theorem ite {p : Prop} [Decidable p] (hm : Local m) (hn : Local n) : Local (if p then m else n) := by
  split
  · exact hm
  · exact hn

theorem bytes [OfReadError ε] (n : Nat) : Local (Cursor.bytes n : ReadM ε ByteArray) := by
  intro c d b h
  obtain ⟨hsize, hb, rfl⟩ := bytes_ok h
  refine ⟨Bytes.list b, hb, ?_, gives_bytes hsize⟩
  rw [Bytes.length_list, hsize]

theorem u32 [OfReadError ε] : Local (Cursor.u32 : ReadM ε UInt32) := (bytes 4).map _

end Local

/-! ### Loops -/

variable {step : σ → ReadM ε (σ ⊕ ρ)} {n : Nat} {s t : σ} {c d : Cursor} {r : ρ} {k l : List UInt8}

theorem Steps.append {m : Nat} {u : σ} (h : Steps step m s k t) (h' : Steps step n t l u) :
    Steps step (m + n) s (k ++ l) u := by
  induction h with
  | none => rwa [Nat.zero_add]
  | next hgives _ ih =>
    rw [List.append_assoc, Nat.add_right_comm]
    exact .next hgives (ih h')

/-- Steps that take something take as many bytes at least as there are steps. -/
theorem Steps.le_length (hsome : ∀ s t, ¬ Gives (step s) (.inl t) []) (h : Steps step n s k t) : n ≤ k.length := by
  induction h with
  | none => exact Nat.le_refl 0
  | @next n s t u k l hgives _ ih =>
    have hk : k ≠ [] := by
      rintro rfl
      exact hsome _ _ hgives
    have hpos := List.length_pos_iff.mpr hk
    rw [List.length_append]
    omega

/-- Where their bytes stand, steps are rounds. -/
theorem Steps.rounds (h : Steps step n s k t) (hc : Holds c.data c.pos k) :
    Rounds step n s c t { c with pos := c.pos + k.length } := by
  induction h generalizing c with
  | none => exact .none
  | @next n s t u k l hgives _ ih =>
    have hrest := ih (c := { c with pos := c.pos + k.length }) hc.right
    rw [List.length_append, ← Nat.add_assoc]
    exact .next (hgives c hc.left) hrest

/-- Rounds are the steps for the bytes that they take. -/
theorem steps_of_rounds (hstep : ∀ s, Local (step s)) (h : Rounds step n s c t d) :
    ∃ k, Steps step n s k t ∧ Holds c.data c.pos k ∧ d = { c with pos := c.pos + k.length } := by
  induction h with
  | none => exact ⟨[], .none, List.nil_prefix, rfl⟩
  | next hround _ ih =>
    obtain ⟨k, hk, rfl, hgives⟩ := hstep _ hround
    obtain ⟨l, hsteps, hl, rfl⟩ := ih
    refine ⟨k ++ l, .next hgives hsteps, Holds.append_iff.mpr ⟨hk, hl⟩, ?_⟩
    simp only [List.length_append, Nat.add_assoc]

/-- A result is the outcome of some rounds and a last step. -/
theorem outcome_of_loopFrom [OfReadError ε] {fuel : Nat} (h : loopFrom step fuel s c = .ok r d) :
    ∃ n, Outcome step n s c (.ok r d) := by
  induction fuel generalizing s c with
  | zero => cases h
  | succ fuel ih =>
    obtain ⟨v, e, hround, hrest⟩ := bind_eq_ok.mp h
    cases v with
    | inl u =>
      obtain ⟨n, t, f, hrounds, hlast⟩ := ih hrest
      exact ⟨n + 1, t, f, .next hround hrounds, hlast⟩
    | inr v =>
      cases hrest
      exact ⟨0, s, c, .none, .result hround⟩

/-- The bytes of a run, with those of the last step behind the others. -/
theorem steps_of_outcome (hstep : ∀ s, Local (step s)) (h : Outcome step n s c (.ok r d)) :
    ∃ k l t, Steps step n s k t ∧ Gives (step t) (.inr r) l ∧ Holds c.data c.pos (k ++ l) ∧
      d = { c with pos := c.pos + (k ++ l).length } := by
  obtain ⟨t, e, hrounds, hlast⟩ := h
  obtain ⟨k, hsteps, hk, rfl⟩ := steps_of_rounds hstep hrounds
  cases hlast with
  | result hround =>
    obtain ⟨l, hl, rfl, hgives⟩ := hstep t hround
    refine ⟨k, l, t, hsteps, hgives, Holds.append_iff.mpr ⟨hk, hl⟩, ?_⟩
    simp only [List.length_append, Nat.add_assoc]

end Adventure.Cursor
