import Adventure.Proofs.Video.CinepakReading

/-! Books brought up to date. Reading the bytes of an update changes the entries it has, and
what is read is just its bytes. -/

namespace Adventure.Cinepak

variable {data : ByteArray}

/-! ### Entries -/

/-- A book with new entries from `i` on, one after the other. -/
def entered (b : Codebook) (i : Nat) : List (Option PixelVector) → Codebook
  | [] => b
  | none :: entries => entered b (i + 1) entries
  | some v :: entries => entered (b.setIfInBounds i v) (i + 1) entries

theorem entered_append (b : Codebook) (i : Nat) (k l : List (Option PixelVector)) :
    entered b i (k ++ l) = entered (entered b i k) (i + k.length) l := by
  induction k generalizing b i with
  | nil => rfl
  | cons e k ih =>
    rw [List.length_cons, ← Nat.add_assoc, Nat.add_right_comm]
    cases e with
    | none => exact ih b (i + 1)
    | some v => exact ih (b.setIfInBounds i v) (i + 1)

theorem getElem_entered (b : Codebook) (i : Nat) (entries : List (Option PixelVector)) (k : Nat) (hk : k < 256) :
    (entered b i entries)[k] = if i ≤ k then (entries[k - i]?.join).getD b[k] else b[k] := by
  induction entries generalizing b i with
  | nil => simp [entered]
  | cons e entries ih =>
    have hnext (h : i + 1 ≤ k) : (e :: entries)[k - i]? = entries[k - (i + 1)]? := by
      rw [show k - i = k - (i + 1) + 1 by omega, List.getElem?_cons_succ]
    rcases Nat.lt_trichotomy i k with hik | rfl | hik
    · have hset (v : PixelVector) : (b.setIfInBounds i v)[k] = b[k] := Vector.getElem_setIfInBounds_ne hk (by omega)
      rw [if_pos (by omega), hnext (by omega)]
      cases e with
      | none => rw [entered, ih, if_pos (by omega)]
      | some v => rw [entered, ih, if_pos (by omega), hset]
    · rw [if_pos (Nat.le_refl _), Nat.sub_self]
      cases e with
      | none => rw [entered, ih, if_neg (by omega)]; rfl
      | some v =>
        rw [entered, ih, if_neg (by omega), Vector.getElem_setIfInBounds_self]
        rfl
    · have hset (v : PixelVector) : (b.setIfInBounds i v)[k] = b[k] := Vector.getElem_setIfInBounds_ne hk (by omega)
      rw [if_neg (by omega)]
      cases e with
      | none => rw [entered, ih, if_neg (by omega)]
      | some v => rw [entered, ih, if_neg (by omega), hset]

theorem entered_eq (b : Codebook) (entries : List (Option PixelVector)) :
    entered b 0 entries = updatedBook entries b := by
  ext k hk : 1
  rw [getElem_entered b 0 entries k hk, if_pos (Nat.zero_le k), updatedBook, Vector.getElem_ofFn]
  rfl

/-! ### Reading them -/

/-- The state with one of the books changed. -/
def State.changed (s : State) (book : Book) (f : Codebook → Codebook) : State :=
  { s with books := Cinepak.changed book f s.books }

theorem State.changed_changed (s : State) (book : Book) (f g : Codebook → Codebook) :
    (s.changed book f).changed book g = s.changed book (g ∘ f) := by
  cases book <;> rfl

theorem setVector_eq (book : Book) (i : Nat) (v : PixelVector) (s : State) :
    setVector book i v s = .ok () (s.changed book (·.setIfInBounds i v)) := by
  cases book <;> rfl

theorem takes_setVector (book : Book) (i : Nat) (v : PixelVector) (s : State) :
    Takes data (setVector book i v) [] s () (s.changed book (·.setIfInBounds i v)) :=
  .still fun pos => setVector_eq book i v { s with pos }

/-- Reading a vector for an entry, and going on. -/
theorem takes_entry {α : Type} {m : M α} {l : List UInt8} {s t : State} {a : α} {book : Book} {i : Nat}
    (v : PixelVector) (hm : Takes data m l (s.changed book (·.setIfInBounds i v)) a t) :
    Takes data (readVector data >>= fun v => setVector book i v >>= fun _ => m) (v.bytes ++ l) s a t :=
  (takes_vector v s).bind ((takes_setVector book i v s).bind hm)

theorem takes_fullBook (book : Book) (i : Nat) (vectors : List PixelVector) (s : State) :
    Takes data (fullBook data book i vectors.length) (vectors.flatMap PixelVector.bytes) s ()
      (s.changed book (entered · i (vectors.map some))) := by
  induction vectors generalizing i s with
  | nil =>
    cases book <;> exact .value () s
  | cons v vectors ih =>
    have hrest := ih (i + 1) (s.changed book (·.setIfInBounds i v))
    rw [State.changed_changed] at hrest
    exact takes_entry v hrest

/-- The bytes of some entries. -/
abbrev entryBytes (entries : List (Option PixelVector)) : List UInt8 := (entries.map entryFlag).flatMap Prod.snd

/-- The entries that a mask names; what is left of the size is theirs that follow. -/
theorem takes_maskedEntries (book : Book) {mask : UInt32} {n : Nat} (hn : n ≤ 32) (i : Nat) {size rest : Int}
    (entries : List (Option PixelVector)) (hlen : entries.length ≤ n)
    (hmask : Shows mask (32 - n) (entries.map Option.isSome)) (hsize : size = (entryBytes entries).length + rest) (s : State) :
    Takes data (maskedEntries data book mask i size n) (entryBytes entries) s rest (s.changed book (entered · i entries)) := by
  induction n generalizing i size entries s with
  | zero =>
    obtain rfl : entries = [] := List.eq_nil_of_length_eq_zero (Nat.le_zero.mp hlen)
    obtain rfl : size = rest := by simpa using hsize
    cases book <;> exact .value size s
  | succ n ih =>
    have hnext : 32 - (n + 1) + 1 = 32 - n := by omega
    cases entries with
    | nil =>
      obtain ⟨hbit, htail⟩ := hmask.clear (by omega)
      rw [hnext] at htail
      rw [maskedEntries, hbit]
      exact ih (by omega) (i + 1) [] (Nat.zero_le n) htail hsize s
    | cons e entries =>
      have hbit : maskBit mask (32 - (n + 1)) = e.isSome := hmask.head (by omega)
      have htail := hmask.tail
      rw [hnext] at htail
      have hfew : entries.length ≤ n := Nat.le_of_succ_le_succ hlen
      rw [maskedEntries, hbit]
      cases e with
      | none => exact ih (by omega) (i + 1) entries hfew htail hsize s
      | some v =>
        have hleft : size - 6 = (entryBytes entries).length + rest := by
          have hfirst : (entryBytes (some v :: entries)).length = 6 + (entryBytes entries).length := by
            simp [entryFlag, PixelVector.bytes]
          omega
        have hrest := ih (by omega) (i + 1) entries hfew htail hleft (s.changed book (·.setIfInBounds i v))
        rw [State.changed_changed] at hrest
        exact takes_entry v hrest

/-- The entries of an update by masks, from one on. -/
theorem takes_maskedBook (book : Book) {fuel : Nat} (i : Nat) {size : Int} (entries : List (Option PixelVector))
    (hsize : size = (gathered (entries.map entryFlag)).length) (hfuel : (gathered (entries.map entryFlag)).length < fuel)
    (s : State) :
    Takes data (maskedBook data book fuel i size) (gathered (entries.map entryFlag)) s 0
      (s.changed book (entered · i entries)) := by
  induction fuel generalizing i size entries s with
  | zero => cases hfuel
  | succ fuel ih =>
    by_cases hnil : entries = []
    · subst hnil
      obtain rfl : size = 0 := by simpa using hsize
      cases book <;> exact .congr (.value 0 s) gathered_nil.symm
    · have hcons : gathered (entries.map entryFlag) = bigLong (maskOf (entries.map Option.isSome)) ++
          (entryBytes (entries.take 32) ++ gathered ((entries.drop 32).map entryFlag)) := by
        rw [gathered_eq (by simpa using hnil), following, ← List.map_drop, ← List.map_take, List.map_map]
        rfl
      have hmask : Shows (maskOf (entries.map Option.isSome)) (32 - 32) ((entries.take 32).map Option.isSome) := by
        rw [List.map_take]
        exact (shows_maskOf _).take (by omega)
      have hlen : (gathered (entries.map entryFlag)).length =
          4 + ((entryBytes (entries.take 32)).length + (gathered ((entries.drop 32).map entryFlag)).length) := by
        rw [hcons, List.length_append, List.length_append]
        rfl
      have hfirst : Takes data (maskedEntries data book (maskOf (entries.map Option.isSome)) i (size - 4) 32)
          (entryBytes (entries.take 32)) s (gathered ((entries.drop 32).map entryFlag)).length
          (s.changed book (entered · i (entries.take 32))) :=
        takes_maskedEntries book (Nat.le_refl 32) i (entries.take 32) (List.length_take_le 32 entries) hmask (by omega) s
      have hrest := ih (i + 32) (entries.drop 32) rfl (by omega) (s.changed book (entered · i (entries.take 32)))
      have hall : (fun b => entered b (i + 32) (entries.drop 32)) ∘ (fun b => entered b i (entries.take 32)) =
          fun b => entered b i entries := by
        funext b
        by_cases hmore : 32 ≤ entries.length
        · have happend := entered_append b i (entries.take 32) (entries.drop 32)
          rw [List.take_append_drop, List.length_take_of_le hmore] at happend
          exact happend.symm
        · rw [Function.comp_apply, List.drop_eq_nil_of_le (by omega), List.take_of_length_le (by omega)]
          rfl
      rw [State.changed_changed, hall] at hrest
      rw [maskedBook, if_neg (by omega)]
      exact .congr ((takes_long _ s).bind (hfirst.bind hrest)) hcons.symm

theorem length_vectors (vectors : List PixelVector) : (vectors.flatMap PixelVector.bytes).length = 6 * vectors.length := by
  induction vectors with
  | nil => rfl
  | cons v vectors ih =>
    rw [List.flatMap_cons, List.length_append, ih, List.length_cons, Nat.mul_succ, Nat.add_comm]
    rfl

theorem vectorCount_mul (n : Nat) (h : n ≤ 256) : vectorCount ((6 * n : Nat) : Int) = n := by
  have hdiv : ((6 * n : Nat) : Int).tdiv 6 = n := Int.mul_tdiv_cancel_left n (show (6 : Int) ≠ 0 by decide)
  rw [vectorCount, hdiv, Int.toNat_natCast, Nat.min_eq_left h]

theorem takes_full {book : Book} {vectors : List PixelVector} (few : vectors.length ≤ 256) (s : State) :
    Takes data (fullBook data book 0 (vectorCount (vectors.flatMap PixelVector.bytes).length) >>= fun _ =>
        pure (((vectors.flatMap PixelVector.bytes).length : Int) - 6 * vectorCount (vectors.flatMap PixelVector.bytes).length))
      (vectors.flatMap PixelVector.bytes) s (0 : Int) (s.changed book (updatedBook (vectors.map some))) := by
  have hread := @takes_fullBook data book 0 vectors s
  have hleft : ((6 * vectors.length : Nat) : Int) - 6 * vectors.length = 0 := by omega
  simp only [entered_eq] at hread
  rw [length_vectors, vectorCount_mul _ few, hleft]
  exact hread.bind_nil (.value 0 _)

/-- The content of an update is read to its end, and leaves the updated books. -/
theorem takes_update (u : Update) (yEnd : Nat) (s : State) :
    Takes data (content data yEnd u.kind u.content.length) u.content s 0 { s with books := u.apply s.books } := by
  cases u with
  | full book vectors few => cases book <;> exact takes_full few s
  | masked book entries =>
    have hread := @takes_maskedBook data book _ 0 _ entries rfl (Nat.lt_succ_self _) s
    simp only [entered_eq] at hread
    cases book <;> exact hread

end Adventure.Cinepak
