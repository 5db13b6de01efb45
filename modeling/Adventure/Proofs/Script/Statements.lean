import Adventure.Proofs.Bytes.Words
import Adventure.Proofs.Script.Untouched

/-! Statements of a script, apart from the bounds that the interpreter counts down. A statement whose conditions do not
hold leaves nothing behind but the random numbers that were taken, and the script goes on where the statement says that
it ends. -/

namespace Adventure.Interpreter

open Operand (Keeps word past span le_span Kind)

/-- What comes of conditions or of operators in a row: an answer and a place in the script, or a fault. -/
abbrev Outcome := EStateM.Result GameError Game (Bool × Script)

/-- The game in which they end. -/
def Outcome.game : Outcome → Game
  | .ok _ g => g
  | .error _ g => g

/-- The conditions of a statement are found out one by one: up to a zero word, to the first one that does not hold, or to
a fault. -/
inductive Checks (current : Nat) : Script → Game → Outcome → Prop
  | unread {s g e} (hword : word s = .error e) : Checks current s g (.error e g)
  | all {s g t} (hword : word s = .ok (0, t)) : Checks current s g (.ok (true, t) g)
  | faults {s g t h code e} (hword : word s = .ok (code, t)) (hcode : code ≠ 0)
      (hcheck : checkCondition current code t g = .error e h) : Checks current s g (.error e h)
  | fails {s g t u h code} (hword : word s = .ok (code, t)) (hcode : code ≠ 0)
      (hcheck : checkCondition current code t g = .ok (false, u) h) : Checks current s g (.ok (false, u) h)
  | holds {s g t u h code r} (hword : word s = .ok (code, t)) (hcode : code ≠ 0)
      (hcheck : checkCondition current code t g = .ok (true, u) h) (hrest : Checks current u h r) : Checks current s g r

/-- The operators of a statement are executed one by one: up to where it ends, to the code that ends the script, or to a
fault. -/
inductive Executes (current statement stop : Nat) : Script → Game → Outcome → Prop
  | done {s g} (hend : stop ≤ s.offset) : Executes current statement stop s g (.ok (false, s) g)
  | unread {s g e} (hinside : s.offset < stop) (hword : word s = .error e) :
      Executes current statement stop s g (.error e g)
  | breaks {s g t} (hinside : s.offset < stop) (hword : word s = .ok (endCode, t)) :
      Executes current statement stop s g (.ok (true, t) g)
  | faults {s g t h code e} (hinside : s.offset < stop) (hword : word s = .ok (code, t)) (hcode : code ≠ endCode)
      (hexec : execCode current statement code t g = .error e h) : Executes current statement stop s g (.error e h)
  | acts {s g t u h code r} (hinside : s.offset < stop) (hword : word s = .ok (code, t)) (hcode : code ≠ endCode)
      (hexec : execCode current statement code t g = .ok ((), u) h) (hrest : Executes current statement stop u h r) :
      Executes current statement stop s g r

variable {current statement stop fuel : Nat} {code : Int16} {s t u : Script} {g h : Game} {w : Int16} {e : GameError}

/-! ### Moving on -/

/-- A word is read from two bytes that are there. -/
theorem word_step (hw : word s = .ok (w, t)) : t = { s with offset := s.offset + 2 } ∧ s.offset + 2 ≤ s.data.size := by
  unfold word at hw
  split at hw
  · rename_i v hv
    obtain ⟨x, hx, -⟩ := Option.map_eq_some_iff.mp hv
    cases hw
    exact ⟨rfl, Bytes.le_size_of_le16? hx⟩
  · cases hw

/-- One script is behind another: the bytes are the same, and there are fewer left of them. -/
def Ahead (s t : Script) : Prop := t.data = s.data ∧ s.data.size - t.offset < s.data.size - s.offset

/-- What a word and operands behind it leave. -/
theorem ahead_past {l : List Kind} (hw : word s = .ok (w, t)) : Ahead s (past l t) := by
  obtain ⟨rfl, hsize⟩ := word_step hw
  have hle := le_span s.data (s.offset + 2) l
  refine ⟨rfl, ?_⟩
  change s.data.size - span s.data (s.offset + 2) l < s.data.size - s.offset
  omega

/-! ### Conditions in a row -/

theorem conditionsHold_succ (current fuel : Nat) (s : Script) (g : Game) :
    conditionsHold current (fuel + 1) s g =
      match word s with
      | .error e => .error e g
      | .ok (code, t) =>
        if code = 0 then .ok (true, t) g
        else
          match checkCondition current code t g with
          | .error e h => .error e h
          | .ok (false, u) h => .ok (false, u) h
          | .ok (true, u) h => conditionsHold current fuel u h := by
  rw [conditionsHold, bind_apply, read_apply]
  cases word s with
  | error e => rfl
  | ok r =>
    obtain ⟨code, t⟩ := r
    dsimp only
    by_cases hcode : code = 0
    · rw [if_pos hcode, if_pos hcode]
      rfl
    · rw [if_neg hcode, if_neg hcode, bind_apply]
      cases checkCondition current code t g with
      | error e h => rfl
      | ok r h =>
        obtain ⟨b, u⟩ := r
        cases b <;> rfl

theorem checks_conditionsHold (hfuel : s.data.size - s.offset < fuel) :
    Checks current s g (conditionsHold current fuel s g) := by
  induction fuel generalizing s g with
  | zero => omega
  | succ fuel ih =>
    rw [conditionsHold_succ]
    cases hword : word s with
    | error e => exact .unread hword
    | ok r =>
      obtain ⟨code, t⟩ := r
      dsimp only
      by_cases hcode : code = 0
      · rw [if_pos hcode]
        exact .all (hcode ▸ hword)
      · rw [if_neg hcode]
        cases hcheck : checkCondition current code t g with
        | error e h => exact .faults hword hcode hcheck
        | ok r h =>
          obtain ⟨b, u⟩ := r
          cases b with
          | false => exact .fails hword hcode hcheck
          | true =>
            obtain ⟨c, -, rfl⟩ := checkCondition_past hcheck
            obtain ⟨hdata, hless⟩ := ahead_past (l := c.operands) hword
            exact .holds hword hcode hcheck (ih (by rw [hdata]; omega))

/-- Wherever conditions lead, the game is as it was but for the random numbers. -/
theorem Checks.rolled {r : Outcome} (hr : Checks current s g r) : g.Rolled r.game := by
  induction hr with
  | unread | all => exact rfl
  | faults _ _ hcheck => exact rolled_of_after (by rw [after, hcheck]; rfl)
  | fails _ _ hcheck => exact rolled_of_after (after_of_ok hcheck)
  | holds _ _ hcheck _ ih => exact (rolled_of_after (after_of_ok hcheck)).trans ih

theorem Checks.data {b : Bool} {r : Outcome} (hr : Checks current s g r) (hok : r = .ok (b, u) h) : u.data = s.data := by
  induction hr with
  | unread | faults => cases hok
  | all hword => cases hok; exact Keeps.word _ _ _ hword
  | fails hword _ hcheck => cases hok; exact (checkCondition_onward hcheck).1.trans (Keeps.word _ _ _ hword)
  | holds hword _ hcheck _ ih =>
    exact (ih hok).trans ((checkCondition_onward hcheck).1.trans (Keeps.word _ _ _ hword))

/-! ### Operators in a row -/

theorem execOperators_succ (current statement stop fuel : Nat) (s : Script) (g : Game) :
    execOperators current statement stop (fuel + 1) s g =
      if stop ≤ s.offset then .ok (false, s) g
      else
        match word s with
        | .error e => .error e g
        | .ok (code, t) =>
          if code = endCode then .ok (true, t) g
          else
            match execCode current statement code t g with
            | .error e h => .error e h
            | .ok ((), u) h => execOperators current statement stop fuel u h := by
  change (if stop ≤ s.offset then pure false else _ : Interpreter Bool) s g = _
  by_cases hend : stop ≤ s.offset
  · rw [if_pos hend, if_pos hend]
    rfl
  rw [if_neg hend, if_neg hend, bind_apply, read_apply]
  cases word s with
  | error e => rfl
  | ok r =>
    obtain ⟨code, t⟩ := r
    dsimp only
    by_cases hcode : code = endCode
    · rw [if_pos hcode, if_pos hcode]
      rfl
    · rw [if_neg hcode, if_neg hcode, bind_apply]
      cases execCode current statement code t g <;> rfl

theorem executes_execOperators (hfuel : s.data.size - s.offset < fuel) :
    Executes current statement stop s g (execOperators current statement stop fuel s g) := by
  induction fuel generalizing s g with
  | zero => omega
  | succ fuel ih =>
    rw [execOperators_succ]
    by_cases hend : stop ≤ s.offset
    · rw [if_pos hend]
      exact .done hend
    have hinside : s.offset < stop := Nat.lt_of_not_le hend
    rw [if_neg hend]
    cases hword : word s with
    | error e => exact .unread hinside hword
    | ok r =>
      obtain ⟨code, t⟩ := r
      dsimp only
      by_cases hcode : code = endCode
      · rw [if_pos hcode]
        exact .breaks hinside (hcode ▸ hword)
      · rw [if_neg hcode]
        cases hexec : execCode current statement code t g with
        | error e h => exact .faults hinside hword hcode hexec
        | ok r h =>
          obtain ⟨⟨⟩, u⟩ := r
          obtain ⟨op, -, rfl⟩ := execCode_past hexec
          obtain ⟨hdata, hless⟩ := ahead_past (l := op.operands) hword
          exact .acts hinside hword hcode hexec (ih (by rw [hdata]; omega))

theorem Executes.data {b : Bool} {v : Script} {r : Outcome} (hr : Executes current statement stop s g r)
    (hok : r = .ok (b, v) h) : v.data = s.data := by
  induction hr with
  | done => cases hok; rfl
  | unread | faults => cases hok
  | breaks _ hword => cases hok; exact Keeps.word _ _ _ hword
  | acts _ hword _ hexec _ ih =>
    obtain ⟨op, -, rfl⟩ := execCode_past hexec
    exact (ih hok).trans (ahead_past hword).1

/-! ### Statements in a row -/

theorem runStatement_apply (current n : Nat) (s : Script) (g : Game) :
    runStatement current n s g =
      match word s with
      | .error e => .error e g
      | .ok (w, t) =>
        if w.toUInt16.toNat ≤ s.offset then .error (.statementEnd s.offset w.toUInt16.toNat) g
        else
          match conditionsHold current (s.data.size + 1) t g with
          | .error e h => .error e h
          | .ok (false, u) h => .ok (w.toUInt16.toNat, u) h
          | .ok (true, u) h =>
            match execOperators current n w.toUInt16.toNat (s.data.size + 1) u h with
            | .error e k => .error e k
            | .ok (false, v) k => .ok (w.toUInt16.toNat, v) k
            | .ok (true, v) k => .ok (s.data.size, v) k := by
  have hplace : (get : Interpreter Script) s g = .ok (s, s) g := rfl
  rw [runStatement, bind_apply, hplace]
  dsimp only
  rw [bind_apply, read_apply]
  cases word s with
  | error e => rfl
  | ok r =>
    obtain ⟨w, t⟩ := r
    dsimp only
    by_cases hend : w.toUInt16.toNat ≤ s.offset
    · rw [if_pos hend, if_pos hend]
      rfl
    rw [if_neg hend, if_neg hend, bind_apply]
    cases conditionsHold current (s.data.size + 1) t g with
    | error e h => rfl
    | ok r h =>
      obtain ⟨b, u⟩ := r
      cases b with
      | false => rfl
      | true =>
        dsimp only
        rw [if_pos rfl, bind_apply]
        cases execOperators current n w.toUInt16.toNat (s.data.size + 1) u h with
        | error e k => rfl
        | ok r k =>
          obtain ⟨b, v⟩ := r
          cases b <;> rfl

/-- A statement that ends behind its start checks its conditions and, if all of them hold, executes its operators. -/
theorem runStatement_outcome (current n : Nat) (g : Game) (hword : word s = .ok (w, t)) (hend : s.offset < w.toUInt16.toNat) :
    ∃ r, Checks current t g r ∧
      match r with
      | .error e h => runStatement current n s g = .error e h
      | .ok (false, u) h => runStatement current n s g = .ok (w.toUInt16.toNat, u) h
      | .ok (true, u) h => ∃ r, Executes current n w.toUInt16.toNat u h r ∧
        match r with
        | .error e k => runStatement current n s g = .error e k
        | .ok (false, v) k => runStatement current n s g = .ok (w.toUInt16.toNat, v) k
        | .ok (true, v) k => runStatement current n s g = .ok (s.data.size, v) k := by
  have hrun := runStatement_apply current n s g
  simp only [hword, if_neg (Nat.not_le.mpr hend)] at hrun
  have htotal (u : Script) (hdata : u.data = s.data) : u.data.size - u.offset < s.data.size + 1 := by
    rw [hdata]
    omega
  have hchecks : Checks current t g _ := checks_conditionsHold (htotal t (Keeps.word _ _ _ hword))
  refine ⟨_, hchecks, ?_⟩
  cases hcond : conditionsHold current (s.data.size + 1) t g with
  | error e h => simpa only [hcond] using hrun
  | ok r h =>
    obtain ⟨b, u⟩ := r
    cases b with
    | false => simpa only [hcond] using hrun
    | true =>
      rw [hcond] at hchecks
      have hdata : u.data = s.data := (hchecks.data rfl).trans (Keeps.word _ _ _ hword)
      simp only [hcond] at hrun
      refine ⟨_, executes_execOperators (htotal u hdata), ?_⟩
      cases hexec : execOperators current n w.toUInt16.toNat (s.data.size + 1) u h with
      | error e k => simpa only [hexec] using hrun
      | ok r k =>
        obtain ⟨b, v⟩ := r
        cases b <;> simpa only [hexec] using hrun

/-- The rest of a script from a statement on. -/
def runFrom (current n : Nat) : Interpreter Unit := fun s => runStatements current (s.data.size - s.offset + 1) n s

theorem runStatements_succ (current fuel n : Nat) (s : Script) (g : Game) :
    runStatements current (fuel + 1) n s g =
      if s.offset < s.data.size then
        match runStatement current n s g with
        | .error e h => .error e h
        | .ok (next, u) h => runStatements current fuel (n + 1) { u with offset := next } h
      else .ok ((), s) g := by
  change (if s.offset < s.data.size then _ else pure () : Interpreter Unit) s g = _
  by_cases hinside : s.offset < s.data.size
  · rw [if_pos hinside, if_pos hinside, bind_apply]
    cases runStatement current n s g <;> rfl
  · rw [if_neg hinside, if_neg hinside]
    rfl

/-- What follows a statement is behind its start, in the same script. -/
theorem runStatement_ok {n next : Nat} (hinside : s.offset < s.data.size) (hs : runStatement current n s g = .ok (next, u) h) :
    u.data = s.data ∧ s.offset < next := by
  rw [runStatement_apply] at hs
  cases hword : word s with
  | error e => rw [hword] at hs; cases hs
  | ok r =>
    obtain ⟨w, t⟩ := r
    by_cases hend : w.toUInt16.toNat ≤ s.offset
    · simp only [hword, if_pos hend] at hs
      cases hs
    rw [← runStatement_apply] at hs
    have hdata : t.data = s.data := Keeps.word _ _ _ hword
    obtain ⟨r, hchecks, hr⟩ := runStatement_outcome current n g hword (Nat.lt_of_not_le hend)
    match r, hchecks, hr with
    | .error e k, _, hr => rw [hr] at hs; cases hs
    | .ok (false, v) k, hchecks, hr =>
      rw [hr] at hs
      cases hs
      exact ⟨(hchecks.data rfl).trans hdata, Nat.lt_of_not_le hend⟩
    | .ok (true, v) k, hchecks, ⟨r, hexecutes, hr⟩ =>
      have hkept : v.data = s.data := (hchecks.data rfl).trans hdata
      match r, hexecutes, hr with
      | .error e l, _, hr => rw [hr] at hs; cases hs
      | .ok (false, x) l, hexecutes, hr =>
        rw [hr] at hs
        cases hs
        exact ⟨(hexecutes.data rfl).trans hkept, Nat.lt_of_not_le hend⟩
      | .ok (true, x) l, hexecutes, hr =>
        rw [hr] at hs
        cases hs
        exact ⟨(hexecutes.data rfl).trans hkept, hinside⟩

theorem runStatements_enough {n fuel fuel' : Nat} (hfuel : s.data.size - s.offset < fuel)
    (hfuel' : s.data.size - s.offset < fuel') :
    runStatements current fuel n s g = runStatements current fuel' n s g := by
  induction fuel generalizing fuel' n s g with
  | zero => omega
  | succ fuel ih =>
    obtain ⟨fuel', rfl⟩ : ∃ k, fuel' = k + 1 := ⟨fuel' - 1, by omega⟩
    rw [runStatements_succ, runStatements_succ]
    by_cases hinside : s.offset < s.data.size
    · rw [if_pos hinside, if_pos hinside]
      cases hs : runStatement current n s g with
      | error e h => rfl
      | ok r h =>
        obtain ⟨next, u⟩ := r
        obtain ⟨hdata, hnext⟩ := runStatement_ok hinside hs
        have hless : u.data.size - next < s.data.size - s.offset := by
          rw [hdata]
          omega
        exact ih (Nat.lt_of_lt_of_le hless (by omega)) (Nat.lt_of_lt_of_le hless (by omega))
    · rw [if_neg hinside, if_neg hinside]

/-- Bounds aside, a script runs one statement after the other. -/
theorem runFrom_apply (current n : Nat) (s : Script) (g : Game) :
    runFrom current n s g =
      if s.offset < s.data.size then
        match runStatement current n s g with
        | .error e h => .error e h
        | .ok (next, _) h => runFrom current (n + 1) { s with offset := next } h
      else .ok ((), s) g := by
  rw [runFrom, runStatements_succ]
  by_cases hinside : s.offset < s.data.size
  · rw [if_pos hinside, if_pos hinside]
    cases hs : runStatement current n s g with
    | error e h => rfl
    | ok r h =>
      obtain ⟨next, u⟩ := r
      obtain ⟨hdata, hnext⟩ := runStatement_ok hinside hs
      dsimp only
      rw [hdata]
      exact runStatements_enough (by dsimp only; omega) (Nat.lt_succ_self _)
  · rw [if_neg hinside, if_neg hinside]

/-- Conditions change nothing in a game but its random numbers, whether they hold or not or fail. If one of a statement
does not hold, none of its operators is executed and the script goes on where the statement ends. If all of them hold, the
operators are executed in order up to that place, where the script goes on, or up to the code that ends it. -/
theorem failed_conditions_traceless (current : Nat) :
    (∀ code s g, after (checkCondition current code s) g =
      { g with random := if Condition.ofCode? code = some .chance then g.random.next.2 else g.random }) ∧
    (∀ data, Game.runScript current data = discard ((runFrom current 0).run { data })) ∧
    ∀ n s g,
      if s.offset < s.data.size then
        match word s with
        | .error e => runFrom current n s g = .error e g
        | .ok (w, t) =>
          let stop := w.toUInt16.toNat
          if stop ≤ s.offset then runFrom current n s g = .error (.statementEnd s.offset stop) g
          else ∃ r, Checks current t g r ∧ g.Rolled r.game ∧
            match r with
            | .error e h => runFrom current n s g = .error e h
            | .ok (false, _) h => runFrom current n s g = runFrom current (n + 1) { s with offset := stop } h
            | .ok (true, u) h => ∃ r, Executes current n stop u h r ∧
              match r with
              | .error e k => runFrom current n s g = .error e k
              | .ok (false, _) k => runFrom current n s g = runFrom current (n + 1) { s with offset := stop } k
              | .ok (true, _) k => runFrom current n s g = .ok ((), { s with offset := s.data.size }) k
      else runFrom current n s g = .ok ((), s) g := by
  refine ⟨after_checkCondition current, fun data => rfl, fun n s g => ?_⟩
  by_cases hinside : s.offset < s.data.size
  · rw [if_pos hinside]
    have hrun := runFrom_apply current n s g
    rw [if_pos hinside] at hrun
    cases hword : word s with
    | error e =>
      rw [runStatement_apply] at hrun
      simpa only [hword] using hrun
    | ok r =>
      obtain ⟨w, t⟩ := r
      dsimp only
      by_cases hend : w.toUInt16.toNat ≤ s.offset
      · rw [if_pos hend]
        rw [runStatement_apply] at hrun
        simpa only [hword, if_pos hend] using hrun
      · rw [if_neg hend]
        obtain ⟨r, hchecks, hr⟩ := runStatement_outcome current n g hword (Nat.lt_of_not_le hend)
        refine ⟨r, hchecks, hchecks.rolled, ?_⟩
        match r, hr with
        | .error e h, hr => simpa only [hr] using hrun
        | .ok (false, u) h, hr => simpa only [hr] using hrun
        | .ok (true, u) h, ⟨r, hexecutes, hr⟩ =>
          refine ⟨r, hexecutes, ?_⟩
          match r, hr with
          | .error e k, hr => simpa only [hr] using hrun
          | .ok (false, v) k, hr => simpa only [hr] using hrun
          | .ok (true, v) k, hr =>
            rw [hr] at hrun
            exact hrun.trans ((runFrom_apply _ _ _ _).trans (if_neg (Nat.lt_irrefl _)))
  · rw [if_neg hinside, runFrom_apply, if_neg hinside]

end Adventure.Interpreter
