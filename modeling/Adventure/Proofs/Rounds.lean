import Adventure.Proofs.Within

/-! Loops round by round. A round of a loop gives a value for the next one, or it is the last one and gives the result or
fails. Rounds are determined by where they start, so a run passes through every place that some rounds lead to. -/

namespace Adventure.Loop

variable {ε τ σ ρ : Type} {step : σ → EStateM ε τ (σ ⊕ ρ)} {a b c : σ} {s t u : τ} {n : Nat} {out : EStateM.Result ε τ ρ}

/-- So many rounds, each followed by another, lead from a value and a state to others. -/
inductive Rounds (step : σ → EStateM ε τ (σ ⊕ ρ)) : Nat → σ → τ → σ → τ → Prop
  | none {a : σ} {s : τ} : Rounds step 0 a s a s
  | next {n : Nat} {a b c : σ} {s t u : τ} :
      step a s = .ok (.inl b) t → Rounds step n b t c u → Rounds step (n + 1) a s c u

/-- The outcome of a round that is the last one. -/
inductive Stops (step : σ → EStateM ε τ (σ ⊕ ρ)) : σ → τ → EStateM.Result ε τ ρ → Prop
  | result {a : σ} {s t : τ} {r : ρ} : step a s = .ok (.inr r) t → Stops step a s (.ok r t)
  | fault {a : σ} {s t : τ} {e : ε} : step a s = .error e t → Stops step a s (.error e t)

/-- The outcome of a loop whose last round comes behind `n` others. -/
def Outcome (step : σ → EStateM ε τ (σ ⊕ ρ)) (n : Nat) (a : σ) (s : τ) (out : EStateM.Result ε τ ρ) : Prop :=
  ∃ b t, Rounds step n a s b t ∧ Stops step b t out

theorem goes_or_stops (step : σ → EStateM ε τ (σ ⊕ ρ)) (a : σ) (s : τ) :
    (∃ b t, step a s = .ok (.inl b) t) ∨ ∃ out, Stops step a s out := by
  cases h : step a s with
  | ok r t =>
    cases r with
    | inl b => exact .inl ⟨b, t, rfl⟩
    | inr r => exact .inr ⟨_, .result h⟩
  | error e t => exact .inr ⟨_, .fault h⟩

theorem Stops.last (h : Stops step a s out) : ¬ step a s = .ok (.inl b) t := by
  cases h with
  | result h => simp [h]
  | fault h => simp [h]

theorem Rounds.trans {m : Nat} (h : Rounds step m a s b t) (h' : Rounds step n b t c u) : Rounds step (n + m) a s c u := by
  induction h with
  | none => exact h'
  | next hstep _ ih => exact .next hstep (ih h')

/-- One round more passes through where the others lead. -/
theorem Rounds.goes (h : Rounds step n a s b t) (h' : Rounds step (n + 1) a s c u) : ∃ d v, step b t = .ok (.inl d) v := by
  induction h with
  | none =>
    cases h' with
    | next hstep _ => exact ⟨_, _, hstep⟩
  | next hstep _ ih =>
    cases h' with
    | next hstep' hrest =>
      rw [hstep] at hstep'
      cases hstep'
      exact ih hrest

/-- What a loop comes to it comes to from every place that some of its rounds lead to. -/
theorem Outcome.behind {m : Nat} (hout : Outcome step m a s out) (h : Rounds step n a s b t) :
    ∃ k, Outcome step k b t out := by
  induction h generalizing m with
  | none => exact ⟨m, hout⟩
  | next hstep _ ih =>
    obtain ⟨c, u, hrounds, hlast⟩ := hout
    cases hrounds with
    | none => exact absurd hstep hlast.last
    | next hstep' hrest =>
      rw [hstep] at hstep'
      cases hstep'
      exact ih ⟨c, u, hrest, hlast⟩

/-- A round that changes nothing is followed by the same round, over and over. -/
theorem rounds_of_stay (h : step a s = .ok (.inl a) s) (n : Nat) : Rounds step n a s a s := by
  induction n with
  | zero => exact .none
  | succ n ih => exact .next h ih

/-- A loop that counts its rounds, and has enough of them for the rank of the first value, comes to the outcome of the
loop that does not. -/
theorem outcome_of_rank (f : Nat → σ → EStateM ε τ ρ) (rank : σ → Nat)
    (hround : ∀ n a, f (n + 1) a = step a >>= Sum.elim (f n) pure)
    (hrank : ∀ a s b t, step a s = .ok (.inl b) t → rank b < rank a) {fuel : Nat} (hfuel : rank a < fuel) (s : τ) :
    ∃ n ≤ rank a, Outcome step n a s (f fuel a s) := by
  induction fuel generalizing a s with
  | zero => exact absurd hfuel (Nat.not_lt_zero _)
  | succ fuel ih =>
    rw [hround]
    simp only [bind, EStateM.bind]
    cases hstep : step a s with
    | ok r t =>
      cases r with
      | inl b =>
        have hlower := hrank a s b t hstep
        obtain ⟨n, hn, c, u, hrounds, hlast⟩ := ih (a := b) (by omega) t
        exact ⟨n + 1, by omega, c, u, .next hstep hrounds, hlast⟩
      | inr r => exact ⟨0, Nat.zero_le _, a, s, .none, .result hstep⟩
    | error e t => exact ⟨0, Nat.zero_le _, a, s, .none, .fault hstep⟩

/-- A loop whose rounds lower a rank comes to an outcome. It is told by whatever each round keeps of where the loop is. -/
theorem exists_outcome {α : Type} (step : σ → EStateM ε τ (σ ⊕ ρ)) (f : σ → τ → α) (g : EStateM.Result ε τ ρ → α)
    (rank : σ → τ → Nat)
    (hnext : ∀ {a s b t}, step a s = .ok (.inl b) t → f a s = f b t ∧ rank b t < rank a s)
    (hlast : ∀ {a s out}, Stops step a s out → f a s = g out) (a : σ) (s : τ) :
    ∃ n ≤ rank a s, ∃ out, Outcome step n a s out ∧ f a s = g out := by
  induction hr : rank a s using Nat.strongRecOn generalizing a s with
  | ind r ih =>
    obtain ⟨b, t, hstep⟩ | ⟨out, hstop⟩ := goes_or_stops step a s
    · obtain ⟨hkept, hlower⟩ := hnext hstep
      obtain ⟨n, hn, out, ⟨c, u, hrounds, hstop⟩, htold⟩ := ih _ (hr ▸ hlower) b t rfl
      exact ⟨n + 1, by omega, out, ⟨c, u, .next hstep hrounds, hstop⟩, hkept.trans htold⟩
    · exact ⟨0, Nat.zero_le _, out, ⟨a, s, .none, hstop⟩, hlast hstop⟩

/-- What is a round and itself behind it is the outcome of a loop whose rounds lower a rank. -/
theorem outcome_of_measure (f : σ → EStateM ε τ ρ) (rank : σ → τ → Nat)
    (hround : ∀ a s, f a s = (step a >>= Sum.elim f pure) s)
    (hrank : ∀ {a s b t}, step a s = .ok (.inl b) t → rank b t < rank a s) (a : σ) (s : τ) :
    ∃ n ≤ rank a s, Outcome step n a s (f a s) := by
  obtain ⟨n, hn, out, hout, hf⟩ := exists_outcome step f id rank
    (fun h => ⟨by rw [hround, bind_of_ok h]; rfl, hrank h⟩)
    (fun h => by
      rw [hround]
      cases h with
      | result h => rw [bind_of_ok h]; rfl
      | fault h => exact bind_eq_error.mpr (.inl h)) a s
  exact ⟨n, hn, hf ▸ hout⟩

end Adventure.Loop
