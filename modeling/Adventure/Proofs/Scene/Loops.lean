import Adventure.Proofs.Rounds
import Adventure.Proofs.Scene.Rounds

/-! The two loops of reading a description, without bounds on their rounds: over the tests in front of a line, and over the
lines. Every round takes something of the text, so both come to an outcome, on any host and in any text, and it is what
is read with the bounds. -/

namespace Adventure.Description

open Loop

variable {H ε : Type} [SceneHost H ε] {s t : Description H} {w v : String}

/-! ### Tests -/

/-- A round of the tests: a word that opens one, and the word behind it. -/
def guardRound (w : String) : M H ε (String ⊕ Option String) := do
  if w ≠ guardWord then return .inr (some w)
  if !(← guard) then return .inr none
  return .inl (← word)

/-- All tests from a word on. -/
def allGuards (w : String) : M H ε (Option String) := fun s => guards (s.tokens.size + 1) w s

/-- A bound on the words that are left for tests. -/
def guardRank (w : String) (s : Description H) : Nat := if w = guardWord then s.tokens.size + 1 else 0

theorem guards_succ (n : Nat) (w : String) (s : Description H) :
    (guards (n + 1) w : M H ε (Option String)) s = (guardRound w >>= Sum.elim (guards n) pure) s := by
  by_cases hw : w = guardWord
  · rw [guards, guardRound, if_neg (not_not_intro hw), if_neg (not_not_intro hw), bind_assoc]
    refine bind_congr_ok fun b t _ => ?_
    cases b with
    | false => rfl
    | true => rfl
  · rw [guards, guardRound, if_pos hw, if_pos hw]
    rfl

/-- Behind a round that goes on there are fewer tests. -/
theorem guardRank_lt (h : (guardRound w : M H ε _) s = .ok (.inl v) t) : guardRank v t < guardRank w s := by
  by_cases hw : w = guardWord
  · rw [guardRound, if_neg (not_not_intro hw)] at h
    obtain ⟨b, u, hguard, h⟩ := bind_eq_ok.mp h
    have hle := size_of_ok Acts.guard hguard
    cases b with
    | false => cases h
    | true =>
      obtain ⟨v', t', hword, h⟩ := bind_eq_ok.mp h
      cases h
      rw [guardRank, guardRank, if_pos hw]
      split
      · rename_i hv
        have hlt := size_of_guardWord (hv ▸ hword)
        omega
      · exact Nat.succ_pos _
  · rw [guardRound, if_pos hw] at h
    cases h

theorem guardRank_le (w : String) (s : Description H) : guardRank w s ≤ s.tokens.size + 1 := by
  unfold guardRank
  split
  · exact Nat.le_refl _
  · exact Nat.zero_le _

theorem allGuards_eq (w : String) (s : Description H) :
    (allGuards w : M H ε (Option String)) s = (guardRound w >>= Sum.elim allGuards pure) s := by
  rw [allGuards, guards_succ]
  refine bind_congr_ok fun r t h => ?_
  cases r with
  | inr r => rfl
  | inl v =>
    refine guards_bound (fun hv => ?_) fun _ => Nat.lt_succ_self _
    have hlt := guardRank_lt h
    have hle := guardRank_le w s
    rw [guardRank, if_pos hv] at hlt
    omega

theorem guards_outcome (w : String) (s : Description H) :
    ∃ n ≤ s.tokens.size + 1, Outcome guardRound n w s ((allGuards w : M H ε (Option String)) s) := by
  obtain ⟨n, hn, hout⟩ := outcome_of_measure allGuards guardRank allGuards_eq guardRank_lt w s
  exact ⟨n, hn.trans (guardRank_le w s), hout⟩

/-! ### Lines -/

/-- A statement whose tests are read by a step of their own. -/
def statementBy (read : String → M H ε (Option String)) (w : String) : M H ε Bool := do
  if w = guardWord then
    match ← read w with
    | none =>
      skipLine
      return true
    | some w =>
      if w ≠ "->" then fault (.missingThen w)
      match ← onTokens Tokenizer.word? with
      | none => return false
      | some w => line w
  else line w

/-- A round of the lines: a word, and the statement that it opens. -/
def lineRound : Unit → M H ε (Unit ⊕ Unit) := fun _ => do
  match ← onTokens Tokenizer.word? with
  | none => return .inr ()
  | some w => return if ← statementBy allGuards w then .inl () else .inr ()

theorem statementBy_allGuards (w : String) (s : Description H) :
    (statementBy allGuards w : M H ε Bool) s = statement (s.tokens.size + 1) w s := by
  unfold statementBy statement
  split
  · exact bind_congr_result rfl
  · rfl

/-- The tests of a round are never cut short. -/
theorem lineRound_eq (s : Description H) : (lineRound () : M H ε (Unit ⊕ Unit)) s =
    (round >>= fun b => pure (if b then .inl () else .inr ())) s := by
  have hround : (round : M H ε Bool) s = roundUpTo s.tokens.size s := rfl
  rw [bind_congr_result hround, roundUpTo, bind_assoc]
  refine bind_congr_ok fun w t hw => ?_
  cases w with
  | none => rfl
  | some w =>
    refine bind_congr_result ?_
    rw [statementBy_allGuards]
    exact statement_bound (Nat.lt_succ_self _) (size_of_word hw)

theorem size_of_lineRound (h : (lineRound () : M H ε (Unit ⊕ Unit)) s = .ok (.inl ()) t) :
    t.tokens.size < s.tokens.size := by
  rw [lineRound_eq] at h
  obtain ⟨b, u, hround, h⟩ := bind_eq_ok.mp h
  cases b with
  | true =>
    cases h
    exact size_of_round hround
  | false => cases h

theorem finish_lineRound (s : Description H) :
    (finish : M H ε Unit) s = (lineRound () >>= Sum.elim (fun _ => finish) pure) s := by
  rw [finish_eq, bind_congr_result (lineRound_eq s), bind_assoc]
  refine bind_congr_ok fun b t _ => ?_
  cases b with
  | true => rfl
  | false => rfl

/-- Every text is read to an outcome, on any host. -/
theorem lines_outcome (text : List Char) (h : H) :
    ∃ n ≤ text.length + 1, ∃ out, Outcome lineRound n () (opening text h) out ∧
      (parse text : EStateM ε H Unit) h = outcome out := by
  obtain ⟨n, hn, hout⟩ := outcome_of_measure (fun _ => (finish : M H ε Unit)) (fun _ s => s.tokens.size)
    (fun _ => finish_lineRound) size_of_lineRound () (opening text h)
  exact ⟨n, hn, _, hout, parse_eq text h⟩

end Adventure.Description
