import Adventure.Proofs.Dialogue
import Adventure.Proofs.Scene.Loops
import Adventure.Proofs.Text.Progress

/-! Texts are read to an end. The tokenizer goes through the bytes of any text, never back, and without cutting a
character; so reading a scene description comes to an end on any host, and so does reading a dialogue. -/

namespace Adventure

open Tokenizer Loop

/-! ### Entries of a dialogue -/

namespace Dialogue

variable {id : String} {entry : DialogueEntry} {l l' : List DialogueEntry} {t t' : Tokenizer}

/-- A round of reading a dialogue: an entry behind those that have been read. -/
def entryRound (l : List DialogueEntry) : EStateM DialogueError Tokenizer (List DialogueEntry ⊕ List DialogueEntry) :=
  fun t =>
    match t.word? with
    | (none, t) => .ok (.inr l) t
    | (some id, t) =>
      if t.isExhausted then .ok (.inr l) t
      else if maxEntries ≤ l.length then .error .tooManyEntries t
      else
        match parseEntry id t with
        | .error e => .error e t
        | .ok (entry, t) => .ok (.inl (l ++ [entry])) t

/-- All entries, of which some have been read. -/
def allEntries (l : List DialogueEntry) (t : Tokenizer) : Except DialogueError (List DialogueEntry) :=
  (parseFrom (maxEntries - l.length) t).map (l ++ ·)

/-- What reading comes to, without the text that is left. -/
def found : EStateM.Result DialogueError Tokenizer (List DialogueEntry) → Except DialogueError (List DialogueEntry)
  | .ok l _ => .ok l
  | .error e _ => .error e

/-- All entries are found round by round. -/
theorem allEntries_eq (l : List DialogueEntry) (t : Tokenizer) : allEntries l t = match entryRound l t with
    | .ok (.inl l') t' => allEntries l' t'
    | .ok (.inr l') _ => .ok l'
    | .error e _ => .error e := by
  rw [allEntries, parseFrom, entryRound]
  cases t.word? with
  | mk id t₁ =>
    cases id with
    | none => exact congrArg Except.ok (List.append_nil l)
    | some id =>
      dsimp only
      by_cases hend : t₁.isExhausted = true
      · rw [if_pos hend, if_pos hend]
        exact congrArg Except.ok (List.append_nil l)
      rw [if_neg hend, if_neg hend]
      cases hn : maxEntries - l.length with
      | zero => rw [if_pos (Nat.sub_eq_zero_iff_le.mp hn)]; rfl
      | succ n =>
        rw [if_neg (by omega)]
        cases parseEntry id t₁ with
        | error e => rfl
        | ok r =>
          have hleft : maxEntries - (l ++ [r.1]).length = n := by
            rw [List.length_append, List.length_singleton]
            omega
          simp only [allEntries, hleft]
          cases parseFrom n r.2 with
          | error e => rfl
          | ok more => exact congrArg Except.ok (List.append_cons l r.1 more)

theorem entryRound_next (h : entryRound l t = .ok (.inl l') t') :
    ∃ id t₁ entry, t.word? = (some id, t₁) ∧ l.length < maxEntries ∧ parseEntry id t₁ = .ok (entry, t') ∧
      l' = l ++ [entry] := by
  unfold entryRound at h
  split at h
  · cases h
  · rename_i id t₁ hword
    split at h
    · cases h
    split at h
    · cases h
    rename_i hroom
    split at h
    · cases h
    rename_i entry t₂ hentry
    cases h
    exact ⟨id, t₁, entry, hword, Nat.not_le.mp hroom, hentry, rfl⟩

theorem size_of_parseEntry (h : parseEntry id t = .ok (entry, t')) : t'.size ≤ t.size := by
  simp only [parseEntry] at h
  split at h
  · cases h
  · split at h
    · cases h
      calc t.word?.2.word?.2.word?.2.word?.2.line?.2.size
        _ ≤ t.word?.2.word?.2.word?.2.word?.2.size := shrinks_line?.size _
        _ ≤ t.word?.2.word?.2.word?.2.size := shrinks_word?.size _
        _ ≤ t.word?.2.word?.2.size := shrinks_word?.size _
        _ ≤ t.word?.2.size := shrinks_word?.size _
        _ ≤ t.size := shrinks_word?.size t
    · cases h

/-- An entry takes one of those that are allowed, and its name something of the text. -/
theorem rank_next (h : entryRound l t = .ok (.inl l') t') :
    min (maxEntries - l'.length) t'.size < min (maxEntries - l.length) t.size := by
  obtain ⟨id, t₁, entry, hword, hroom, hentry, rfl⟩ := entryRound_next h
  have hsize := word?_size hword
  have hle := size_of_parseEntry hentry
  rw [List.length_append, List.length_singleton]
  omega

theorem allEntries_last {out : EStateM.Result DialogueError Tokenizer (List DialogueEntry)}
    (h : Stops entryRound l t out) : allEntries l t = found out := by
  rw [allEntries_eq]
  cases h with
  | result h => rw [h]; rfl
  | fault h => rw [h]; rfl

theorem entries_outcome (text : List Char) :
    ∃ n ≤ min maxEntries (text.length + 1), ∃ out, Outcome entryRound n [] (ofText text) out ∧ parse text = found out := by
  obtain ⟨n, hn, out, hout, hfound⟩ := exists_outcome entryRound allEntries found
    (fun l t => min (maxEntries - l.length) t.size) (fun h => ⟨by rw [allEntries_eq, h], rank_next h⟩) allEntries_last []
    (ofText text)
  refine ⟨n, hn, out, hout, ?_⟩
  rw [← hfound, allEntries, parse]
  cases parseFrom maxEntries (ofText text) <;> rfl

end Dialogue

/-- Any text is read on, between its characters and to an end. Whatever has been read of its bytes, in whatever order and
also where reading failed, no call cuts a character: it gives what there is to read of the characters, and a place further
on. So the loop over the tests in front of a line comes to an outcome on any host, and so do the loops over the lines of a
scene description and over the entries of a dialogue. -/
theorem reading_ends (text : String) :
    (∀ (calls : List Call) (c : Call), let t := afterCalls text.toList calls
      Scanner.run text calls = some (t.place text) ∧
      Scanner.call text c (t.place text) = some (c.answer t, (c.run t).place text) ∧
      Advances text (t.place text) (c.answer t) ((c.run t).place text)) ∧
    (∀ (H ε : Type) [SceneHost H ε] (h : H),
      (∀ (w : String) (s : Description H), ∃ n ≤ s.tokens.size + 1,
        Outcome Description.guardRound n w s ((Description.allGuards w : Description.M H ε (Option String)) s)) ∧
      ∃ n ≤ text.length + 1, ∃ out,
        Outcome (Description.lineRound : Unit → Description.M H ε (Unit ⊕ Unit)) n ()
          (Description.opening text.toList h) out ∧
        (Description.parse text.toList : EStateM ε H Unit) h = Description.outcome out) ∧
    ∃ n ≤ min maxEntries (text.length + 1), ∃ out,
      Outcome Dialogue.entryRound n [] (ofText text.toList) out ∧ Dialogue.parse text.toList = Dialogue.found out := by
  refine ⟨fun calls c => ?_, fun H ε _ h => ⟨Description.guards_outcome, ?_⟩, ?_⟩
  · have hsuffix := afterCalls_suffix text.toList calls
    exact ⟨Scanner.run_place text calls, Scanner.call_place hsuffix c, advances hsuffix c⟩
  · exact Description.lines_outcome text.toList h
  · exact Dialogue.entries_outcome text.toList

end Adventure
