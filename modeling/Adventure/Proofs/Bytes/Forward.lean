import Adventure.Proofs.Bytes.Reading

/-! Readers on data that break off. A reader that only goes forward does not look beyond what it takes: on a
part of its data it comes to the same as on the whole, or to the end of the part. -/

namespace Adventure

open Cursor (Gives)

variable {ε α β : Type} [OfReadError ε]

/-- What comes of `data` against what comes of them with `more` behind: they end and that is reported, or both
are the same, with the same position. -/
inductive Follows (data more : ByteArray) : EStateM.Result ε Cursor α → EStateM.Result ε Cursor α → Prop
  | ends {e : ReadError} {c : Cursor} {r : EStateM.Result ε Cursor α} (hend : e.offset + e.available = data.size)
      (hwanted : e.available < e.wanted) : Follows data more (.error (OfReadError.ofReadError e) c) r
  | value (a : α) {pos : Nat} (hpos : pos ≤ data.size) : Follows data more (.ok a ⟨data, pos⟩) (.ok a ⟨data ++ more, pos⟩)
  | fault (e : ε) {pos : Nat} : Follows data more (.error e ⟨data, pos⟩) (.error e ⟨data ++ more, pos⟩)

/-- Data that break off before the place up to which the whole is read end. -/
theorem Follows.of_value {data more whole : ByteArray} {r : EStateM.Result ε Cursor α} {a : α} {pos : Nat}
    (h : Follows data more r (.ok a ⟨whole, pos⟩)) (hpos : data.size < pos) :
    ∃ e c, r = .error (OfReadError.ofReadError e) c ∧ e.offset + e.available = data.size ∧ e.available < e.wanted := by
  cases h with
  | ends hend hwanted => exact ⟨_, _, rfl, hend, hwanted⟩
  | value a hle => omega

/-- The reader does not look beyond what it takes. -/
def Forward (m : ReadM ε α) : Prop :=
  ∀ (data more : ByteArray) (pos : Nat), pos ≤ data.size → Follows data more (m ⟨data, pos⟩) (m ⟨data ++ more, pos⟩)

namespace Forward

variable {m n : ReadM ε α} {f : α → ReadM ε β}

theorem bind (hm : Forward m) (hf : ∀ a, Forward (f a)) : Forward (m >>= f) := by
  intro data more pos hpos
  have hfirst := hm data more pos hpos
  simp only [Bind.bind, EStateM.bind]
  generalize m ⟨data, pos⟩ = r, m ⟨data ++ more, pos⟩ = r' at hfirst
  cases hfirst with
  | ends hend hwanted => exact .ends hend hwanted
  | value a hpos => exact hf a data more _ hpos
  | fault e => exact .fault e

theorem pure (a : α) : Forward (Pure.pure a : ReadM ε α) := fun _ _ _ hpos => .value a hpos

theorem throw (e : ε) : Forward (MonadExcept.throw e : ReadM ε α) := fun _ _ _ _ => .fault e

theorem map {m : ReadM ε α} (g : α → β) (hm : Forward m) : Forward (m >>= fun a => Pure.pure (g a)) :=
  hm.bind fun a => pure (g a)

theorem ite {c : Prop} [Decidable c] (hm : Forward m) (hn : Forward n) : Forward (if c then m else n) := by
  split
  · exact hm
  · exact hn

theorem times (hm : Forward m) (n : Nat) : Forward (Cursor.times m n) := by
  induction n with
  | zero => exact pure []
  | succ n ih => exact hm.bind fun a => ih.map (a :: ·)

theorem bytes (n : Nat) : Forward (Cursor.bytes n : ReadM ε ByteArray) := by
  intro data more pos hpos
  have hleft : (⟨data, pos⟩ : Cursor).remaining = data.size - pos := rfl
  by_cases hn : (⟨data, pos⟩ : Cursor).remaining < n
  · rw [Cursor.bytes, if_pos hn]
    exact .ends (Nat.add_sub_cancel' hpos) hn
  · have hleft' : (⟨data ++ more, pos⟩ : Cursor).remaining = data.size + more.size - pos :=
      congrArg (· - pos) ByteArray.size_append
    have hnone : more.extract (pos - data.size) (pos + n - data.size) = ByteArray.empty := by
      rw [show pos + n - data.size = 0 by omega]
      simp
    have hinside : (data ++ more).extract pos (pos + n) = data.extract pos (pos + n) := by
      rw [ByteArray.extract_append, hnone, ByteArray.append_empty]
    have hpos' : pos + n ≤ data.size := by omega
    rw [Cursor.bytes, Cursor.bytes, if_neg hn, if_neg (by omega), hinside]
    exact .value _ hpos'

theorem u8 : Forward (Cursor.u8 : ReadM ε UInt8) := (bytes 1).map _

theorem u16 : Forward (Cursor.u16 : ReadM ε UInt16) := (bytes 2).map _

theorem i16 : Forward (Cursor.i16 : ReadM ε Int16) := u16.map _

theorem u32 : Forward (Cursor.u32 : ReadM ε UInt32) := (bytes 4).map _

theorem string16 : Forward (Cursor.string16 : ReadM ε String) := u16.bind fun n => (bytes n.toNat).map _

/-- What stands behind does not matter. -/
theorem run_append (hm : Forward m) {data : ByteArray} {a : α} (h : Cursor.run m data = .ok a) (more : ByteArray) :
    Cursor.run m (data ++ more) = .ok a := by
  unfold Cursor.run at h ⊢
  have hfollows := hm data more 0 (Nat.zero_le _)
  generalize m ⟨data, 0⟩ = r, m ⟨data ++ more, 0⟩ = r' at h hfollows
  cases hfollows with
  | ends => cases h
  | value a => exact h
  | fault => cases h

/-- Data that are all taken are missed wherever they break off. -/
theorem run_cut (hm : Forward m) {data : ByteArray} {a : α} (hgives : Gives m a (Bytes.list data)) {n : Nat}
    (hn : n < data.size) : ∃ e : ReadError, Cursor.run m (data.extract 0 n) = .error (OfReadError.ofReadError e) ∧
      e.offset + e.available = n ∧ e.available < e.wanted := by
  have hsize : (data.extract 0 n).size = n := by
    rw [ByteArray.size_extract]
    omega
  have hwhole : data.extract 0 n ++ data.extract n data.size = data := by simp
  have hall : m ⟨data, 0⟩ = .ok a ⟨data, 0 + (Bytes.list data).length⟩ := hgives ⟨data, 0⟩ (Bytes.holds_list data)
  have hfollows := hm (data.extract 0 n) (data.extract n data.size) 0 (Nat.zero_le _)
  rw [hwhole, hall, Bytes.length_list, Nat.zero_add] at hfollows
  obtain ⟨e, c, hread, hend, hwanted⟩ := hfollows.of_value (by omega)
  exact ⟨e, by rw [Cursor.run, hread], hend.trans hsize, hwanted⟩

end Forward

end Adventure
