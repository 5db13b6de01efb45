import Adventure.Proofs.Bytes.Reading

/-! Loops of readers against the bytes they read. A loop goes from state to state over the bytes of its steps, and ends
with a step that gives its result or with one that fails. -/

namespace Adventure.Cursor

open Bytes (Holds)

variable {ε α β σ ρ : Type}

/-- Where the bytes `l` stand, the reader fails. -/
def Faults (m : ReadM ε α) (e : ε) (l : List UInt8) : Prop := ∀ c : Cursor, Holds c.data c.pos l → ∃ d, m c = .error e d

section

variable {m : ReadM ε α} {f : α → ReadM ε β} {a : α} {e : ε} {k l : List UInt8}

theorem Faults.throw (e : ε) : Faults (throw e : ReadM ε α) e [] := fun c _ => ⟨c, rfl⟩

/-- What follows is not read. -/
theorem Faults.bind (hm : Faults m e l) : Faults (m >>= f) e l := by
  intro c hc
  obtain ⟨d, hd⟩ := hm c hc
  refine ⟨d, ?_⟩
  simp only [Bind.bind, EStateM.bind, hd]

theorem Gives.faults (hm : Gives m a k) (hf : Faults (f a) e l) : Faults (m >>= f) e (k ++ l) := by
  intro c hc
  obtain ⟨d, hd⟩ := hf { c with pos := c.pos + k.length } hc.right
  refine ⟨d, ?_⟩
  have hfirst := hm c hc.left
  simp only [Bind.bind, EStateM.bind, hfirst]
  exact hd

/-- What follows fails before it reads anything. -/
theorem Gives.faults_nil (hm : Gives m a l) (hf : Faults (f a) e []) : Faults (m >>= f) e l := by
  have h := hm.faults hf
  rwa [List.append_nil] at h

theorem Faults.append (hm : Faults m e l) (k : List UInt8) : Faults m e (l ++ k) := fun c hc => hm c hc.left

theorem Faults.run (hm : Faults m e l) (k : List UInt8) : Cursor.run m (Bytes.ofList (l ++ k)) = .error e := by
  have hown := Bytes.holds_list (Bytes.ofList (l ++ k))
  rw [Bytes.list_ofList] at hown
  obtain ⟨d, hd⟩ := hm ⟨Bytes.ofList (l ++ k), 0⟩ hown.left
  simp only [Cursor.run, hd]

end

/-- Over these bytes, so many steps go from a state to another. -/
inductive Steps (step : σ → ReadM ε (σ ⊕ ρ)) : Nat → σ → List UInt8 → σ → Prop
  | none {s : σ} : Steps step 0 s [] s
  | next {n : Nat} {s t u : σ} {k l : List UInt8} :
      Gives (step s) (.inl t) k → Steps step n t l u → Steps step (n + 1) s (k ++ l) u

section

variable {step : σ → ReadM ε (σ ⊕ ρ)} {next : σ → β → σ} {encode : β → List UInt8} {I : List β → σ → Prop}

/-- Steps for the items of a list, as long as what is needed for those that are left is kept. -/
theorem steps_foldl (hstep : ∀ b l s, I (b :: l) s → Gives (step s) (.inl (next s b)) (encode b) ∧ I l (next s b))
    {l : List β} {s : σ} (hs : I l s) : Steps step l.length s (l.flatMap encode) (l.foldl next s) := by
  induction l generalizing s with
  | nil => exact .none
  | cons b l ih =>
    obtain ⟨hgives, hrest⟩ := hstep b l s hs
    rw [List.flatMap_cons]
    exact .next hgives (ih hrest)

end

variable [OfReadError ε] {step : σ → ReadM ε (σ ⊕ ρ)} {n : Nat} {s t : σ} {r : ρ} {e : ε} {k l : List UInt8}

theorem gives_loopFrom (h : Steps step n s k t) (hlast : Gives (step t) (.inr r) l) {fuel : Nat} (hfuel : n < fuel) :
    Gives (loopFrom step fuel s) r (k ++ l) := by
  induction h generalizing fuel with
  | none =>
    obtain ⟨fuel, rfl⟩ := Nat.exists_eq_add_of_le' hfuel
    exact hlast.bind_nil (.value r)
  | next hgives _ ih =>
    obtain ⟨fuel, rfl⟩ := Nat.exists_eq_add_of_le' (Nat.lt_of_le_of_lt (Nat.zero_le _) hfuel)
    rw [List.append_assoc]
    exact hgives.bind (ih hlast (Nat.lt_of_succ_lt_succ hfuel))

theorem faults_loopFrom (h : Steps step n s k t) (hlast : Faults (step t) e l) {fuel : Nat} (hfuel : n < fuel) :
    Faults (loopFrom step fuel s) e (k ++ l) := by
  induction h generalizing fuel with
  | none =>
    obtain ⟨fuel, rfl⟩ := Nat.exists_eq_add_of_le' hfuel
    exact hlast.bind
  | next hgives _ ih =>
    obtain ⟨fuel, rfl⟩ := Nat.exists_eq_add_of_le' (Nat.lt_of_le_of_lt (Nat.zero_le _) hfuel)
    rw [List.append_assoc]
    exact hgives.faults (ih hlast (Nat.lt_of_succ_lt_succ hfuel))

/-- As many steps as there are bytes left are enough. -/
theorem lt_remaining {c : Cursor} (hn : n ≤ k.length) (hc : Holds c.data c.pos (k ++ l)) : n < c.remaining + 1 := by
  have hlength := hc.left.length_le
  rw [List.length_drop, Bytes.length_list] at hlength
  exact Nat.lt_succ_of_le (Nat.le_trans hn hlength)

theorem gives_loop (h : Steps step n s k t) (hn : n ≤ k.length) (hlast : Gives (step t) (.inr r) l) :
    Gives (loop step s) r (k ++ l) := fun c hc => gives_loopFrom h hlast (lt_remaining hn hc) c hc

theorem faults_loop (h : Steps step n s k t) (hn : n ≤ k.length) (hlast : Faults (step t) e l) :
    Faults (loop step s) e (k ++ l) := fun c hc => faults_loopFrom h hlast (lt_remaining hn hc) c hc

/-- Items are read up to the mark that ends them. -/
theorem gives_items {item : ReadM ε (Option α)} {encode : α → List UInt8} {l : List α} {stop : List UInt8}
    (hitem : ∀ a ∈ l, Gives item (some a) (encode a)) (hne : ∀ a ∈ l, encode a ≠ []) (hstop : Gives item none stop) :
    Gives (items item) l (l.flatMap encode ++ stop) := by
  -- the loop puts each item in front of those before it
  have hreverse : l.foldl (fun acc a => a :: acc) [] = l.reverse := by
    rw [List.foldl_flip_cons_eq_append, List.append_nil, List.map_id']
  refine Gives.bind_nil (a := l.reverse) ?_ (by rw [List.reverse_reverse]; exact .value l)
  refine gives_loop ?_ (Bytes.length_le_flatMap hne) (hstop.bind_nil (.value _))
  rw [← hreverse]
  refine steps_foldl (I := fun l _ => ∀ a ∈ l, Gives item (some a) (encode a)) (fun a l acc h => ?_) hitem
  exact ⟨(h a List.mem_cons_self).bind_nil (.value _), fun b hb => h b (List.mem_cons_of_mem _ hb)⟩

end Adventure.Cursor
