import Adventure.Proofs.Within

/-! Two runs side by side. Steps that are taken from related states keep abreast when both give the
same value and lead to related states again, or both fail with the same fault. -/

namespace Adventure

variable {ε σ α β : Type} {P Q R : σ → σ → Prop}

/-- The same value in related states, or the same fault. -/
def Matches (R : σ → σ → Prop) : EStateM.Result ε σ α → EStateM.Result ε σ α → Prop
  | .ok a s, .ok b t => a = b ∧ R s t
  | .error e _, .error f _ => e = f
  | _, _ => False

/-- From states related by `P` two steps come to the same, in states related by `Q`. -/
def Abreast (P Q : σ → σ → Prop) (m n : EStateM ε σ α) : Prop := ∀ s t, P s t → Matches Q (m s) (n t)

namespace Abreast

variable {m n : EStateM ε σ α}

theorem of_ok (h : Abreast P Q m n) {s t s' : σ} {a : α} (hst : P s t) (hm : m s = .ok a s') :
    ∃ t', n t = .ok a t' ∧ Q s' t' := by
  have hmatch := h s t hst
  rw [hm] at hmatch
  cases hn : n t with
  | ok b t' =>
    rw [hn] at hmatch
    obtain ⟨rfl, hQ⟩ := hmatch
    exact ⟨t', rfl, hQ⟩
  | error e t' =>
    rw [hn] at hmatch
    exact hmatch.elim

theorem mono {P' Q' : σ → σ → Prop} (h : Abreast P Q m n) (hP : ∀ s t, P' s t → P s t)
    (hQ : ∀ s t, Q s t → Q' s t) : Abreast P' Q' m n := by
  intro s t hst
  have hmatch := h s t (hP s t hst)
  cases hm : m s <;> cases hn : n t <;> rw [hm, hn] at hmatch
  · exact ⟨hmatch.1, hQ _ _ hmatch.2⟩
  · exact hmatch.elim
  · exact hmatch.elim
  · exact hmatch

theorem bind {f g : α → EStateM ε σ β} (hm : Abreast P Q m n) (hf : ∀ a, Abreast Q R (f a) (g a)) :
    Abreast P R (m >>= f) (n >>= g) := by
  intro s t hst
  have hmatch := hm s t hst
  simp only [Bind.bind, EStateM.bind]
  cases hs : m s <;> cases ht : n t <;> rw [hs, ht] at hmatch
  · obtain ⟨rfl, hQ⟩ := hmatch
    exact hf _ _ _ hQ
  · exact hmatch.elim
  · exact hmatch.elim
  · exact hmatch

theorem value (a : α) : Abreast P P (pure a : EStateM ε σ α) (pure a) := fun _ _ h => ⟨rfl, h⟩

theorem fault (e : ε) : Abreast P Q (throw e : EStateM ε σ α) (throw e) := fun _ _ _ => rfl

theorem lift (e : Except ε α) : Abreast P P (ofExcept e : EStateM ε σ α) (ofExcept e) := by
  cases e with
  | ok a => exact value a
  | error e => exact fault e

/-- What follows may depend on the states that are looked at. -/
theorem look {f g : σ → EStateM ε σ α} (h : ∀ s t, P s t → Abreast P Q (f s) (g t)) :
    Abreast P Q (get >>= f) (get >>= g) := fun s t hst => h s t hst s t hst

theorem modifies {f g : σ → σ} (h : ∀ s t, P s t → Q (f s) (g t)) :
    Abreast P Q (modify f : EStateM ε σ PUnit) (modify g) := fun s t hst => ⟨rfl, h s t hst⟩

theorem modifiesGet {f g : σ → α × σ} (h : ∀ s t, P s t → (f s).1 = (g t).1 ∧ Q (f s).2 (g t).2) :
    Abreast P Q (modifyGet f : EStateM ε σ α) (modifyGet g) := h

theorem ite {c : Prop} [Decidable c] {m' n' : EStateM ε σ α} (hm : Abreast P Q m n) (hn : Abreast P Q m' n') :
    Abreast P Q (if c then m else m') (if c then n else n') := by
  split
  · exact hm
  · exact hn

theorem discard (h : Abreast P Q m n) : Abreast P Q (discard m) (discard n) := h.bind fun _ => value _

end Abreast

end Adventure
