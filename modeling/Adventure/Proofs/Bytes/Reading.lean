import Adventure.Bytes.Cursor
import Adventure.Proofs.Text.Utf8

/-! Readers against the bytes they read. A reader gives a value for a list of bytes if it
gives the value wherever these bytes stand and stops behind them; readers in a row give
their values for the bytes in a row. -/

namespace Adventure.Cursor

open Bytes (Holds)

variable {ε α β : Type}

/-- Where the bytes `l` stand, the reader gives `a` and stops behind them. -/
def Gives (m : ReadM ε α) (a : α) (l : List UInt8) : Prop :=
  ∀ c : Cursor, Holds c.data c.pos l → m c = .ok a { c with pos := c.pos + l.length }

namespace Gives

variable {m : ReadM ε α} {f : α → ReadM ε β} {a : α} {b : β} {k l : List UInt8}

theorem bind (hm : Gives m a k) (hf : Gives (f a) b l) : Gives (m >>= f) b (k ++ l) := by
  intro c hc
  have hfirst : m c = .ok a { c with pos := c.pos + k.length } := hm c hc.left
  have hrest := hf { c with pos := c.pos + k.length } hc.right
  simp only [Bind.bind, EStateM.bind, hfirst]
  rw [hrest, List.length_append, Nat.add_assoc]

theorem value (a : α) : Gives (pure a : ReadM ε α) a [] := fun _ _ => rfl

/-- What follows reads nothing. -/
theorem bind_nil (hm : Gives m a l) (hf : Gives (f a) b []) : Gives (m >>= f) b l := by
  have h := hm.bind hf
  rwa [List.append_nil] at h

theorem map (g : α → β) (hm : Gives m a l) : Gives (m >>= fun x => pure (g x)) (g a) l := hm.bind_nil (value _)

/-- What is read from a buffer that starts with these bytes. -/
theorem run (hm : Gives m a l) (k : List UInt8) : Cursor.run m (Bytes.ofList (l ++ k)) = .ok a := by
  have hown := Bytes.holds_list (Bytes.ofList (l ++ k))
  rw [Bytes.list_ofList] at hown
  have hread := hm ⟨Bytes.ofList (l ++ k), 0⟩ hown.left
  simp only [Cursor.run, hread]

/-- What is read behind them, where it can be read. -/
theorem of_run (hm : Gives m a l) {k : List UInt8} (h : Cursor.run (m >>= f) (Bytes.ofList (l ++ k)) = .ok b) :
    ∃ c d, f a c = .ok b d := by
  have hown := Bytes.holds_list (Bytes.ofList (l ++ k))
  rw [Bytes.list_ofList] at hown
  have hread := hm ⟨Bytes.ofList (l ++ k), 0⟩ hown.left
  simp only [Cursor.run, Bind.bind, EStateM.bind, hread] at h
  split at h
  · rename_i hf
    cases h
    exact ⟨_, _, hf⟩
  · cases h

end Gives

/-! ### Fields -/

variable [OfReadError ε]

theorem gives_bytes {b : ByteArray} {n : Nat} (hn : b.size = n) :
    Gives (bytes n : ReadM ε ByteArray) b (Bytes.list b) := by
  subst hn
  intro c hc
  have hroom : ¬ c.remaining < b.size := by
    unfold remaining
    by_cases hb : Bytes.list b = []
    · rw [← Bytes.length_list b, hb]
      exact Nat.not_lt_zero _
    · have hle := hc.le_size hb
      rw [Bytes.length_list] at hle
      omega
  have hdata : c.data.extract c.pos (c.pos + b.size) = b := Bytes.list_inj hc.extract
  rw [bytes, if_neg hroom, hdata]
  rfl

theorem gives_u8 (v : UInt8) : Gives (u8 : ReadM ε UInt8) v [v] :=
  Gives.map _ (gives_bytes (b := ByteArray.empty.push v) rfl)

theorem gives_u16 (w : UInt16) : Gives (u16 : ReadM ε UInt16) w (Bytes.word w) := by
  have hread : Gives (u16 : ReadM ε UInt16) _ (Bytes.word w) :=
    Gives.map _ (gives_bytes (b := Bytes.push16 ByteArray.empty w) rfl)
  have hw : (Bytes.at0 (Bytes.push16 ByteArray.empty w) 0).toUInt16 |||
      ((Bytes.at0 (Bytes.push16 ByteArray.empty w) 1).toUInt16 <<< 8) = w := Bytes.word_join w
  rwa [hw] at hread

theorem gives_i16 (v : Int16) : Gives (i16 : ReadM ε Int16) v (Bytes.word v.toUInt16) :=
  Gives.map UInt16.toInt16 (gives_u16 v.toUInt16)

theorem gives_u32 (w : UInt32) : Gives (u32 : ReadM ε UInt32) w (Bytes.long w) := by
  have hread : Gives (u32 : ReadM ε UInt32) _ (Bytes.long w) :=
    Gives.map _ (gives_bytes (b := Bytes.push32 ByteArray.empty w) rfl)
  rw [Bytes.long_of_bytes] at hread
  have hlow : (Bytes.at0 (Bytes.push32 ByteArray.empty w) 0).toUInt16 |||
      ((Bytes.at0 (Bytes.push32 ByteArray.empty w) 1).toUInt16 <<< 8) = w.toUInt16 := Bytes.word_join _
  have hhigh : (Bytes.at0 (Bytes.push32 ByteArray.empty w) 2).toUInt16 |||
      ((Bytes.at0 (Bytes.push32 ByteArray.empty w) 3).toUInt16 <<< 8) = (w >>> 16).toUInt16 := Bytes.word_join _
  rwa [hlow, hhigh, Bytes.long_join] at hread

omit [OfReadError ε] in
/-- As many items as there are in a list, each of them read as something that it says. -/
theorem gives_times_map {item : ReadM ε β} {value : α → β} {encode : α → List UInt8} {l : List α}
    (h : ∀ a ∈ l, Gives item (value a) (encode a)) : Gives (times item l.length) (l.map value) (l.flatMap encode) := by
  induction l with
  | nil => exact Gives.value []
  | cons a l ih =>
    have hrest := ih fun x hx => h x (List.mem_cons_of_mem _ hx)
    exact (h a List.mem_cons_self).bind (hrest.map (value a :: ·))

omit [OfReadError ε] in
/-- As many items as there are in a list. -/
theorem gives_times {item : ReadM ε α} {encode : α → List UInt8} {l : List α}
    (h : ∀ a ∈ l, Gives item a (encode a)) : Gives (times item l.length) l (l.flatMap encode) := by
  have hread : Gives (times item l.length) (l.map id) (l.flatMap encode) := gives_times_map h
  rwa [List.map_id] at hread

/-- A text in a field of its own size or one filled up with zeros. It is cut at its first zero. -/
theorem gives_field (s : String) (n : Nat) :
    Gives (do return Text.ofField (← bytes (s.utf8ByteSize + n)) : ReadM ε String) (Text.cut s)
      (Text.bytes s ++ List.replicate n 0) := by
  have hsize : (Bytes.ofList (Text.bytes s ++ List.replicate n 0)).size = s.utf8ByteSize + n := by
    rw [Bytes.size_ofList, List.length_append, Text.length_bytes, List.length_replicate]
  have hread := Gives.map Text.ofField (gives_bytes (ε := ε) hsize)
  rwa [Text.ofField_eq_cut (Bytes.list_ofList _), Bytes.list_ofList] at hread

theorem gives_cutString16 {s : String} (n : Nat) (hn : s.utf8ByteSize + n < 65536) :
    Gives (string16 : ReadM ε String) (Text.cut s)
      (Bytes.word (s.utf8ByteSize + n).toUInt16 ++ (Text.bytes s ++ List.replicate n 0)) := by
  have hlen : (s.utf8ByteSize + n).toUInt16.toNat = s.utf8ByteSize + n := UInt16.toNat_ofNat_of_lt' hn
  refine (gives_u16 _).bind ?_
  rw [hlen]
  exact gives_field s n

theorem gives_string16 {s : String} (hs : Text.NoZero s) (n : Nat) (hn : s.utf8ByteSize + n < 65536) :
    Gives (string16 : ReadM ε String) s
      (Bytes.word (s.utf8ByteSize + n).toUInt16 ++ (Text.bytes s ++ List.replicate n 0)) := by
  have hread := gives_cutString16 (ε := ε) n hn
  rwa [Text.cut_eq hs] at hread

end Adventure.Cursor
