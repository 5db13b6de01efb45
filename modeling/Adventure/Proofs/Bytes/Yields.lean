import Adventure.Bytes.Cursor
import Adventure.Proofs.Text.Utf8
import Adventure.Proofs.Within

/-! What readers yield from whatever bytes there are. -/

namespace Adventure

/-- Wherever something is read, `P` holds of its value. -/
def Yields {ε α : Type} (m : ReadM ε α) (P : α → Prop) : Prop := ∀ c, Leads m c (fun a _ => P a) fun _ => True

namespace Yields

variable {ε α β : Type} {m : ReadM ε α} {f : α → ReadM ε β} {P : α → Prop} {Q : β → Prop}

theorem bind (hm : Yields m P) (hf : ∀ a, P a → Yields (f a) Q) : Yields (m >>= f) Q := fun c =>
  Leads.bind ((hm c).mono (fun a d h => hf a h d) fun _ h => h)

theorem anything (m : ReadM ε α) : Yields m fun _ => True := fun c => (within_anyhow m c).mono (fun _ _ h => h) fun _ h => h

/-- Nothing is needed of the first value. -/
theorem skip (hf : ∀ a, Yields (f a) Q) : Yields (m >>= f) Q := (anything m).bind fun a _ => hf a

theorem value {a : α} (h : P a) : Yields (pure a : ReadM ε α) P := fun _ => h

theorem fault (e : ε) : Yields (throw e : ReadM ε α) P := fun _ => trivial

theorem times (hm : Yields m P) (n : Nat) : Yields (Cursor.times m n) fun l => l.length = n ∧ ∀ a ∈ l, P a := by
  induction n with
  | zero => exact value ⟨rfl, fun _ h => nomatch h⟩
  | succ n ih =>
    refine hm.bind fun a ha => ih.bind fun l hl => value ⟨congrArg Nat.succ hl.1, fun b hb => ?_⟩
    obtain rfl | hb := List.mem_cons.mp hb
    · exact ha
    · exact hl.2 b hb

theorem run (hm : Yields m P) {data : ByteArray} {a : α} (h : Cursor.run m data = .ok a) : P a := by
  unfold Cursor.run at h
  split at h
  · rename_i hr
    cases h
    exact (hm _).of_ok hr
  · cases h

theorem ite {n : ReadM ε α} {c : Prop} [Decidable c] (hm : Yields m P) (hn : Yields n P) : Yields (if c then m else n) P :=
  fun d => Leads.ite (fun _ => hm d) fun _ => hn d

section

variable [OfReadError ε] {σ ρ : Type} {step : σ → ReadM ε (σ ⊕ ρ)} {I : σ → Prop} {R : ρ → Prop}

/-- What each step keeps of a value holds of it until one gives the result. -/
theorem loopFrom (hstep : ∀ s, I s → Yields (step s) fun r => r.elim I R) (n : Nat) {s : σ} (hs : I s) :
    Yields (Cursor.loopFrom step n s) R := by
  induction n generalizing s with
  | zero => exact fun _ => trivial
  | succ n ih =>
    refine (hstep s hs).bind fun r hr => ?_
    cases r with
    | inl s => exact ih hr
    | inr r => exact .value hr

theorem loop (hstep : ∀ s, I s → Yields (step s) fun r => r.elim I R) {s : σ} (hs : I s) : Yields (Cursor.loop step s) R :=
  .skip fun _ => loopFrom hstep _ hs

/-- A text is cut at its first zero. -/
theorem string16 : Yields (Cursor.string16 : ReadM ε String) Text.NoZero :=
  .skip fun _ => .skip fun _ => .value (Text.noZero_ofField _)

end

end Yields

end Adventure
