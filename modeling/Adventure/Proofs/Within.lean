import Adventure.Word

/-! Where a step leads, whether it succeeds or fails: a step that fails keeps what it did so
far. A relation that holds from the start of every part of a step to where that part ends holds
for the whole step. -/

namespace Adventure

variable {ε σ α β : Type}

/-- The state in which a step ends. -/
def after (m : EStateM ε σ α) (s : σ) : σ :=
  match m s with
  | .ok _ t => t
  | .error _ t => t

theorem after_of_ok {m : EStateM ε σ α} {s t : σ} {a : α} (h : m s = .ok a t) : after m s = t := by
  rw [after, h]

/-- What is made of the value does not matter for the state. -/
theorem after_value (m : EStateM ε σ α) (b : β) (s : σ) : after (m >>= fun _ => pure b) s = after m s := by
  simp only [after, bind, EStateM.bind]
  cases m s <;> rfl

/-- A step succeeds, and its state passes a test. -/
def passes (m : EStateM ε σ α) (test : σ → Bool) (s : σ) : Bool :=
  match m s with
  | .ok _ t => test t
  | .error _ _ => false

theorem of_passes {m : EStateM ε σ α} {test : σ → Bool} {s : σ} (h : passes m test s = true) :
    ∃ a, m s = .ok a (after m s) ∧ test (after m s) = true := by
  unfold passes at h
  unfold after
  cases hm : m s with
  | ok a t => rw [hm] at h; exact ⟨a, rfl, h⟩
  | error e t => rw [hm] at h; cases h

theorem of_run {m : EStateM ε σ α} {s : σ} {a : α} (h : m.run' s = some a) : ∃ t, m s = .ok a t := by
  unfold EStateM.run' EStateM.run at h
  cases hm : m s with
  | ok b t =>
    rw [hm] at h
    cases h
    exact ⟨t, rfl⟩
  | error e t =>
    rw [hm] at h
    cases h

theorem ok_after {m : EStateM ε σ α} {s : σ} {a : α} (h : m.run' s = some a) : m s = .ok a (after m s) := by
  obtain ⟨t, ht⟩ := of_run h
  rw [ht, after_of_ok ht]

/-- Of the first part only its result matters. -/
theorem bind_congr_result {m m' : EStateM ε σ α} {f : α → EStateM ε σ β} {s s' : σ} (h : m s = m' s') :
    (m >>= f) s = (m' >>= f) s' := by
  simp only [bind, EStateM.bind, h]

theorem bind_of_ok {m : EStateM ε σ α} {f : α → EStateM ε σ β} {s t : σ} {a : α} (h : m s = .ok a t) :
    (m >>= f) s = f a t := by
  simp only [bind, EStateM.bind, h]

/-- Steps in a row that succeed are steps that succeed. -/
theorem bind_eq_ok {m : EStateM ε σ α} {f : α → EStateM ε σ β} {s u : σ} {b : β} :
    (m >>= f) s = .ok b u ↔ ∃ a t, m s = .ok a t ∧ f a t = .ok b u := by
  simp only [bind, EStateM.bind]
  cases m s with
  | ok a t =>
    constructor
    · intro h
      exact ⟨a, t, rfl, h⟩
    · rintro ⟨_, _, h, hf⟩
      cases h
      exact hf
  | error e t => simp

/-- Steps in a row that fail fail somewhere. -/
theorem bind_eq_error {m : EStateM ε σ α} {f : α → EStateM ε σ β} {s u : σ} {e : ε} :
    (m >>= f) s = .error e u ↔ m s = .error e u ∨ ∃ a t, m s = .ok a t ∧ f a t = .error e u := by
  simp only [bind, EStateM.bind]
  cases m s with
  | ok a t =>
    constructor
    · intro h
      exact Or.inr ⟨a, t, rfl, h⟩
    · rintro (h | ⟨_, _, h, hf⟩)
      · cases h
      · cases h
        exact hf
  | error e t => simp

/-- Values in a row that are there are values that are there. -/
theorem except_bind_eq_ok {e : Except ε α} {f : α → Except ε β} {b : β} :
    (e >>= f) = .ok b ↔ ∃ a, e = .ok a ∧ f a = .ok b := by
  cases e with
  | ok a =>
    constructor
    · intro h
      exact ⟨a, rfl, h⟩
    · rintro ⟨_, h, hf⟩
      cases h
      exact hf
  | error e => simp [bind, Except.bind]

theorem lift_ok {e : Except ε α} {a : α} (h : e = .ok a) (s : σ) : (ofExcept e : EStateM ε σ α) s = .ok a s := by
  rw [h]
  rfl

/-- What comes second matters only where the first part leads. -/
theorem bind_congr_ok {m : EStateM ε σ α} {f g : α → EStateM ε σ β} {s : σ}
    (h : ∀ a t, m s = .ok a t → f a t = g a t) : (m >>= f) s = (m >>= g) s := by
  simp only [bind, EStateM.bind]
  cases hm : m s with
  | ok a t => exact h a t hm
  | error e t => rfl

/-- What is so of the value and the state that a step gives, and of the state in which it fails. -/
def Leads (m : EStateM ε σ α) (s : σ) (good : α → σ → Prop) (bad : σ → Prop) : Prop :=
  match m s with
  | .ok a t => good a t
  | .error _ t => bad t

namespace Leads

variable {m : EStateM ε σ α} {s : σ} {good : α → σ → Prop} {bad : σ → Prop}

theorem bind {f : α → EStateM ε σ β} {good' : β → σ → Prop}
    (h : Leads m s (fun a t => Leads (f a) t good' bad) bad) : Leads (m >>= f) s good' bad := by
  simp only [Leads, Bind.bind, EStateM.bind] at h ⊢
  cases hm : m s with
  | ok a t => simpa only [hm] using h
  | error e t => simpa only [hm] using h

theorem look {f : σ → EStateM ε σ α} (h : Leads (f s) s good bad) : Leads (get >>= f) s good bad := h

theorem mono {good' : α → σ → Prop} {bad' : σ → Prop} (h : Leads m s good bad) (hgood : ∀ a t, good a t → good' a t)
    (hbad : ∀ t, bad t → bad' t) : Leads m s good' bad' := by
  unfold Leads at h ⊢
  cases hm : m s with
  | ok a t => rw [hm] at h; exact hgood a t h
  | error e t => rw [hm] at h; exact hbad t h

theorem and {good' : α → σ → Prop} {bad' : σ → Prop} (h : Leads m s good bad) (h' : Leads m s good' bad') :
    Leads m s (fun a t => good a t ∧ good' a t) fun t => bad t ∧ bad' t := by
  unfold Leads at h h' ⊢
  cases hm : m s with
  | ok a t => rw [hm] at h h'; exact ⟨h, h'⟩
  | error e t => rw [hm] at h h'; exact ⟨h, h'⟩

theorem of_ok {a : α} {t : σ} (h : Leads m s good bad) (hm : m s = .ok a t) : good a t := by
  rwa [Leads, hm] at h

theorem ite {n : EStateM ε σ α} {c : Prop} [Decidable c] (hm : c → Leads m s good bad) (hn : ¬c → Leads n s good bad) :
    Leads (if c then m else n) s good bad := by
  split
  · rename_i h
    exact hm h
  · rename_i h
    exact hn h

/-- A value that is there or not, in the same state. -/
theorem lift (e : Except ε α) (s : σ) : Leads (ofExcept e : EStateM ε σ α) s (fun a t => t = s ∧ e = .ok a) fun t => t = s := by
  cases e with
  | ok a => exact ⟨rfl, rfl⟩
  | error e => exact rfl

theorem at_after (m : EStateM ε σ α) (s : σ) : Leads m s (fun _ t => t = Adventure.after m s) fun t => t = Adventure.after m s := by
  unfold Leads Adventure.after
  cases m s <;> rfl

/-- What is so in either case is so where the step ends. -/
theorem after {P : σ → Prop} (h : Leads m s (fun _ t => P t) P) : P (after m s) := by
  unfold Leads at h
  unfold Adventure.after
  cases hm : m s with
  | ok a t => rwa [hm] at h
  | error e t => rwa [hm] at h

end Leads

/-- From every state a step leads to one that is related to it by `R`, or fails in one that is
related to it by `E`. -/
def Within (R E : σ → σ → Prop) (m : EStateM ε σ α) : Prop := ∀ s, Leads m s (fun _ t => R s t) (E s)

theorem Within.change {R E : σ → σ → Prop} {f : σ → σ} (hf : ∀ s, R s (f s)) :
    Within R E (modify f : EStateM ε σ PUnit) := hf

theorem Within.changeGet {R E : σ → σ → Prop} {f : σ → α × σ} (hf : ∀ s, R s (f s).2) :
    Within R E (modifyGet f : EStateM ε σ α) := hf

theorem Within.ite {R E : σ → σ → Prop} {m n : EStateM ε σ α} {c : Prop} [Decidable c] (hm : Within R E m)
    (hn : Within R E n) : Within R E (if c then m else n) := by
  split
  · exact hm
  · exact hn

/-- Relations that steps in a row keep to when each of them does. -/
structure Chains (R E : σ → σ → Prop) : Prop where
  refl : ∀ s, R s s
  stop : ∀ s, E s s
  trans : ∀ {s t u}, R s t → R t u → R s u
  fails : ∀ {s t u}, R s t → E t u → E s u

/-- Nothing is said of where a step leads. -/
theorem within_anyhow (m : EStateM ε σ α) : Within (fun _ _ => True) (fun _ _ => True) m := by
  intro s
  unfold Leads
  split <;> trivial

/-- Whether it succeeds or fails, a step keeps what holds of the state. -/
def Maintains (P : σ → Prop) (m : EStateM ε σ α) : Prop := Within (fun s t => P s → P t) (fun s t => P s → P t) m

/-- Whether it succeeds or fails, a step leaves a part of the state as it is. -/
def Leaves {τ : Type} (f : σ → τ) (m : EStateM ε σ α) : Prop :=
  Within (fun s t => f t = f s) (fun s t => f t = f s) m

theorem Leaves.modify {τ : Type} {f : σ → τ} {h : σ → σ} (hh : ∀ s, f (h s) = f s) :
    Leaves f (modify h : EStateM ε σ PUnit) := hh

/-- What holds of a part that is left as it is goes on to hold. -/
theorem Leaves.maintains {τ : Type} {f : σ → τ} {m : EStateM ε σ α} (hm : Leaves f m) (P : τ → Prop) :
    Maintains (fun s => P (f s)) m := fun s => by
  have kept {t : σ} (h : f t = f s) (hs : P (f s)) : P (f t) := by rwa [h]
  exact (hm s).mono (fun _ _ => kept) fun _ => kept

namespace Chains

theorem ofOrder {R : σ → σ → Prop} (hrefl : ∀ s, R s s) (htrans : ∀ {s t u}, R s t → R t u → R s u) : Chains R R :=
  ⟨hrefl, hrefl, htrans, htrans⟩

/-- What every step keeps that succeeds, and what is left of it when one fails. -/
theorem keeps {P Q : σ → Prop} (h : ∀ s, P s → Q s) : Chains (fun s t => P s → P t) fun s t => P s → Q t where
  refl _ := id
  stop := h
  trans h₁ h₂ := h₂ ∘ h₁
  fails h₁ h₂ := h₂ ∘ h₁

theorem maintains (P : σ → Prop) : Chains (fun s t => P s → P t) fun s t => P s → P t := keeps fun _ => id

/-- A part of the state that stays the same. -/
theorem same {τ : Type} (f : σ → τ) : Chains (fun s t => f t = f s) fun s t => f t = f s :=
  ofOrder (fun _ => rfl) fun h₁ h₂ => h₂.trans h₁

variable {R E : σ → σ → Prop} (hR : Chains R E)
include hR

theorem bind {m : EStateM ε σ α} {f : α → EStateM ε σ β} (hm : Within R E m) (hf : ∀ a, Within R E (f a)) :
    Within R E (m >>= f) := by
  intro s
  refine Leads.bind ((hm s).mono (fun a t h => ?_) fun _ h => h)
  exact (hf a t).mono (fun _ _ => hR.trans h) fun _ => hR.fails h

theorem value (a : α) : Within R E (pure a : EStateM ε σ α) := fun s => hR.refl s

theorem fault (e : ε) : Within R E (throw e : EStateM ε σ α) := fun s => hR.stop s

theorem get : Within R E (MonadState.get : EStateM ε σ σ) := fun s => hR.refl s

theorem look {f : σ → EStateM ε σ α} (hf : ∀ s, Within R E (f s)) : Within R E (MonadState.get >>= f) :=
  hR.bind hR.get hf

theorem lift (e : Except ε α) : Within R E (ofExcept e : EStateM ε σ α) := fun s =>
  (Leads.lift e s).mono (fun _ _ h => h.1 ▸ hR.refl s) fun _ h => h ▸ hR.stop s

end Chains

/-- Relations that a row of steps keeps to when what comes before its end keeps to others. -/
structure Ends (R E R' E' : σ → σ → Prop) : Prop where
  done : ∀ {s t}, R s t → R' s t
  stopped : ∀ {s t}, E s t → E' s t
  behind : ∀ {s t u}, R s t → R' t u → R' s u
  fails : ∀ {s t u}, R s t → E' t u → E' s u

theorem Chains.ends {R E : σ → σ → Prop} (hR : Chains R E) : Ends R E R E := ⟨id, id, hR.trans, hR.fails⟩

namespace Ends

variable {R E R' E' : σ → σ → Prop} (hR : Ends R E R' E')
include hR

theorem within {m : EStateM ε σ α} (hm : Within R E m) : Within R' E' m := fun s =>
  (hm s).mono (fun _ _ => hR.done) fun _ => hR.stopped

theorem bind {m : EStateM ε σ α} {f : α → EStateM ε σ β} (hm : Within R E m) (hf : ∀ a, Within R' E' (f a)) :
    Within R' E' (m >>= f) := by
  intro s
  refine Leads.bind ((hm s).mono (fun a t h => ?_) fun _ => hR.stopped)
  exact (hf a t).mono (fun _ _ => hR.behind h) fun _ => hR.fails h

end Ends

end Adventure
