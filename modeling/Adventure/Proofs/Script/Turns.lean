import Adventure.Proofs.Script.Statements
import Mathlib.Data.List.Perm.Subperm

/-! Scripts come to an end, whatever bytes they are made of. The loops of the interpreter are taken turn by turn, without
the bounds that it counts down: a turn begins a statement, finds out a condition or executes an operator. The place in the
script can go back where a statement ends, but each statement begins behind the one before it, and within a statement every
turn moves on by the word of its code at least. -/

namespace Adventure.Interpreter

open Operand (Keeps word le_span)

/-! ### Turns -/

/-- What comes next: a statement, or a condition or an operator of one that ends at `stop`. -/
inductive Turn where
  | statement
  | condition (stop : Nat)
  | operator (stop : Nat)

/-- The interpreter between two turns, in the statement of a number. -/
structure State where
  turn : Turn
  number : Nat
  script : Script
  game : Game

/-- How a script ends. -/
abbrev End := EStateM.Result GameError Game Unit

/-- A statement starts with the place where it ends. -/
def beginStatement (n : Nat) (s : Script) (g : Game) : State ⊕ End :=
  if s.offset < s.data.size then
    match word s with
    | .error e => .inr (.error e g)
    | .ok (w, t) =>
      if w.toUInt16.toNat ≤ s.offset then .inr (.error (.statementEnd s.offset w.toUInt16.toNat) g)
      else .inl ⟨.condition w.toUInt16.toNat, n, t, g⟩
  else .inr (.ok () g)

/-- A zero word leads from the conditions to the operators; a condition that does not hold ends the statement. -/
def takeCondition (current stop n : Nat) (s : Script) (g : Game) : State ⊕ End :=
  match word s with
  | .error e => .inr (.error e g)
  | .ok (code, t) =>
    if code = 0 then .inl ⟨.operator stop, n, t, g⟩
    else
      match checkCondition current code t g with
      | .error e h => .inr (.error e h)
      | .ok (false, u) h => .inl ⟨.statement, n + 1, { u with offset := stop }, h⟩
      | .ok (true, u) h => .inl ⟨.condition stop, n, u, h⟩

/-- Behind the operators of a statement the script goes on where the statement ends, be that further on or further back. -/
def takeOperator (current stop n : Nat) (s : Script) (g : Game) : State ⊕ End :=
  if stop ≤ s.offset then .inl ⟨.statement, n + 1, { s with offset := stop }, g⟩
  else
    match word s with
    | .error e => .inr (.error e g)
    | .ok (code, t) =>
      if code = endCode then .inl ⟨.statement, n + 1, { t with offset := t.data.size }, g⟩
      else
        match execCode current n code t g with
        | .error e h => .inr (.error e h)
        | .ok ((), u) h => .inl ⟨.operator stop, n, u, h⟩

/-- One turn: the next state, or the end. -/
def turn (current : Nat) : State → State ⊕ End
  | ⟨.statement, n, s, g⟩ => beginStatement n s g
  | ⟨.condition stop, n, s, g⟩ => takeCondition current stop n s g
  | ⟨.operator stop, n, s, g⟩ => takeOperator current stop n s g

/-- The states from one on, and how the script ends. -/
inductive Runs (current : Nat) : State → List State → End → Prop
  | last {p r} (h : turn current p = .inr r) : Runs current p [p] r
  | next {p q l r} (h : turn current p = .inl q) (hrest : Runs current q l r) : Runs current p (p :: l) r

namespace State

/-- A statement begins here. -/
def begins (p : State) : Bool :=
  match p.turn with
  | .statement => p.script.offset < p.script.data.size
  | _ => false

/-- No statement begins in front of this place any more. -/
def floor (p : State) : Nat :=
  match p.turn with
  | .statement => p.script.offset
  | .condition stop | .operator stop => min stop p.script.data.size

end State

/-- Where the statements begin. -/
def starts (l : List State) : List Nat := (l.filter State.begins).map (·.script.offset)

variable {current n stop : Nat} {code : Int16} {s t u : Script} {g h : Game} {p q : State} {l : List State} {r : End}

/-! ### Moving on -/

/-- A condition takes the word of its code at least, whether it holds or not. -/
theorem checkCondition_moves {b : Bool} (hword : word s = .ok (code, t)) (hcheck : checkCondition current code t g = .ok (b, u) h) :
    s.offset + 2 ≤ u.offset := by
  obtain ⟨rfl, -⟩ := word_step hword
  exact (checkCondition_onward hcheck).2

/-- So does an operator, also one that goes back for each box. -/
theorem execCode_moves (hword : word s = .ok (code, t)) (hexec : execCode current n code t g = .ok ((), u) h) :
    s.offset + 2 ≤ u.offset := by
  obtain ⟨rfl, -⟩ := word_step hword
  obtain ⟨op, -, rfl⟩ := execCode_past hexec
  exact le_span _ _ _

/-- What a turn leads to. The bytes stay, statements begin further on, and the place moves on within a statement. -/
structure Follows (p q : State) : Prop where
  data : q.script.data = p.script.data
  floor_le : p.floor ≤ q.floor
  floor_lt : p.begins → p.floor < q.floor
  moves : (q.number = p.number ∧ p.script.offset + 2 ≤ q.script.offset ∧ p.script.offset + 2 ≤ p.script.data.size) ∨
    q.number = p.number + 1

theorem follows_statement (hq : turn current ⟨.statement, n, s, g⟩ = .inl q) : Follows ⟨.statement, n, s, g⟩ q := by
  change beginStatement n s g = .inl q at hq
  unfold beginStatement at hq
  split at hq
  · rename_i hinside
    cases hword : word s with
    | error e => rw [hword] at hq; cases hq
    | ok r =>
      obtain ⟨w, t⟩ := r
      obtain ⟨rfl, hsize⟩ := word_step hword
      simp only [hword] at hq
      split at hq
      · cases hq
      · rename_i hstop
        cases hq
        have hfloor : s.offset < min w.toUInt16.toNat s.data.size := by omega
        exact ⟨rfl, Nat.le_of_lt hfloor, fun _ => hfloor, .inl ⟨rfl, Nat.le_refl _, hsize⟩⟩
  · cases hq

theorem follows_condition (hq : turn current ⟨.condition stop, n, s, g⟩ = .inl q) : Follows ⟨.condition stop, n, s, g⟩ q := by
  change takeCondition current stop n s g = .inl q at hq
  unfold takeCondition at hq
  cases hword : word s with
  | error e => rw [hword] at hq; cases hq
  | ok r =>
    obtain ⟨code, t⟩ := r
    have hdata : t.data = s.data := Keeps.word _ _ _ hword
    have hsize := (word_step hword).2
    simp only [hword] at hq
    split at hq
    · cases hq
      obtain ⟨rfl, -⟩ := word_step hword
      exact ⟨rfl, Nat.le_refl _, nofun, .inl ⟨rfl, Nat.le_refl _, hsize⟩⟩
    · cases hcheck : checkCondition current code t g with
      | error e h => simp only [hcheck] at hq; cases hq
      | ok r h =>
        obtain ⟨b, u⟩ := r
        have hkept : u.data = s.data := (checkCondition_onward hcheck).1.trans hdata
        cases b with
        | false =>
          simp only [hcheck] at hq
          cases hq
          exact ⟨hkept, Nat.min_le_left _ _, nofun, .inr rfl⟩
        | true =>
          simp only [hcheck] at hq
          cases hq
          have hfloor : min stop s.data.size ≤ min stop u.data.size := Nat.le_of_eq (by rw [hkept])
          exact ⟨hkept, hfloor, nofun, .inl ⟨rfl, checkCondition_moves hword hcheck, hsize⟩⟩

theorem follows_operator (hq : turn current ⟨.operator stop, n, s, g⟩ = .inl q) : Follows ⟨.operator stop, n, s, g⟩ q := by
  change takeOperator current stop n s g = .inl q at hq
  unfold takeOperator at hq
  split at hq
  · cases hq
    exact ⟨rfl, Nat.min_le_left _ _, nofun, .inr rfl⟩
  cases hword : word s with
  | error e => rw [hword] at hq; cases hq
  | ok r =>
    obtain ⟨code, t⟩ := r
    have hdata : t.data = s.data := Keeps.word _ _ _ hword
    simp only [hword] at hq
    split at hq
    · cases hq
      have hfloor : min stop s.data.size ≤ t.data.size := by rw [hdata]; exact Nat.min_le_right _ _
      exact ⟨hdata, hfloor, nofun, .inr rfl⟩
    · cases hexec : execCode current n code t g with
      | error e h => simp only [hexec] at hq; cases hq
      | ok r h =>
        obtain ⟨⟨⟩, u⟩ := r
        simp only [hexec] at hq
        cases hq
        obtain ⟨op, -, rfl⟩ := execCode_past hexec
        have hfloor : min stop s.data.size ≤ min stop t.data.size := Nat.le_of_eq (by rw [hdata])
        exact ⟨hdata, hfloor, nofun, .inl ⟨rfl, execCode_moves hword hexec, (word_step hword).2⟩⟩

theorem follows_turn (hq : turn current p = .inl q) : Follows p q :=
  match p with
  | ⟨.statement, _, _, _⟩ => follows_statement hq
  | ⟨.condition _, _, _, _⟩ => follows_condition hq
  | ⟨.operator _, _, _, _⟩ => follows_operator hq

/-! ### The states of a run -/

theorem starts_cons (p : State) (l : List State) :
    starts (p :: l) = if p.begins then p.script.offset :: starts l else starts l := by
  unfold starts
  by_cases hp : p.begins <;> simp [hp]

theorem mem_starts_cons {c : Nat} : c ∈ starts (p :: l) ↔ p.begins ∧ c = p.script.offset ∨ c ∈ starts l := by
  rw [starts_cons]
  by_cases hp : p.begins <;> simp [hp]

theorem floor_of_begins (hp : p.begins) : p.floor = p.script.offset ∧ p.script.offset < p.script.data.size := by
  unfold State.begins at hp
  unfold State.floor
  split at hp
  · rename_i hturn
    rw [hturn]
    exact ⟨rfl, of_decide_eq_true hp⟩
  · cases hp

namespace Runs

theorem floor_le (hr : Runs current p l r) : ∀ c ∈ starts l, p.floor ≤ c := by
  induction hr with
  | last =>
    intro c hc
    obtain ⟨hp, rfl⟩ | hc := mem_starts_cons.mp hc
    · exact Nat.le_of_eq (floor_of_begins hp).1
    · cases hc
  | next h _ ih =>
    intro c hc
    obtain ⟨hp, rfl⟩ | hc := mem_starts_cons.mp hc
    · exact Nat.le_of_eq (floor_of_begins hp).1
    · exact Nat.le_trans (follows_turn h).floor_le (ih c hc)

/-- Each statement begins behind the one before it. -/
theorem starts_increase (hr : Runs current p l r) : (starts l).Pairwise (· < ·) := by
  induction hr with
  | @last p r h =>
    rw [starts_cons]
    split
    · exact List.pairwise_singleton _ _
    · exact .nil
  | @next p q l r h hrest ih =>
    rw [starts_cons]
    split
    · rename_i hp
      have hlt := (follows_turn h).floor_lt hp
      rw [(floor_of_begins hp).1] at hlt
      exact List.pairwise_cons.mpr ⟨fun c hc => Nat.lt_of_lt_of_le hlt (hrest.floor_le c hc), ih⟩
    · exact ih

theorem starts_inside (hr : Runs current p l r) : ∀ c ∈ starts l, c < p.script.data.size := by
  induction hr with
  | last =>
    intro c hc
    obtain ⟨hp, rfl⟩ | hc := mem_starts_cons.mp hc
    · exact (floor_of_begins hp).2
    · cases hc
  | next h _ ih =>
    intro c hc
    obtain ⟨hp, rfl⟩ | hc := mem_starts_cons.mp hc
    · exact (floor_of_begins hp).2
    · exact (follows_turn h).data ▸ ih c hc

/-- There are no more statements than bytes. -/
theorem length_starts (hr : Runs current p l r) : (starts l).length ≤ p.script.data.size := by
  have hnodup : (starts l).Nodup := hr.starts_increase.imp Nat.ne_of_lt
  have hsub : starts l ⊆ List.range p.script.data.size := fun c hc => List.mem_range.mpr (hr.starts_inside c hc)
  have hle := (List.subperm_of_subset hnodup hsub).length_le
  rwa [List.length_range] at hle

/-- Two bytes at least stand behind a turn of a statement if another one of it follows. -/
theorem countP_number (hr : Runs current p l r) (n : Nat) :
    (n < p.number → l.countP (·.number = n) = 0) ∧ 2 * l.countP (·.number = n) ≤ p.script.data.size + 2 ∧
      (p.number = n → 2 * l.countP (·.number = n) ≤ p.script.data.size - p.script.offset + 2) := by
  induction hr with
  | @last p r h =>
    have hle : [p].countP (·.number = n) ≤ 1 := List.countP_le_length
    refine ⟨fun hn => ?_, by omega, fun _ => by omega⟩
    rw [List.countP_singleton, if_neg (by simp only [decide_eq_true_eq]; omega)]
  | @next p q l r h hrest ih =>
    obtain ⟨hdata, -, -, hmoves⟩ := follows_turn h
    obtain ⟨hbefore, hall, hown⟩ := ih
    rw [hdata] at hall hown
    have hcons : (p :: l).countP (·.number = n) = l.countP (·.number = n) + if p.number = n then 1 else 0 := by
      rw [List.countP_cons]
      simp only [decide_eq_true_eq]
    rw [hcons]
    -- a turn within its statement has two bytes to itself, and behind its last one the number does not come again
    obtain ⟨hnumber, hmove, hinside⟩ | hnumber := hmoves
    · rw [hnumber] at hbefore hown
      by_cases hn : p.number = n
      · have hle := hown hn
        rw [if_pos hn]
        exact ⟨fun hlt => absurd hn (Nat.ne_of_gt hlt), by omega, fun _ => by omega⟩
      · rw [if_neg hn]
        exact ⟨hbefore, hall, fun hn' => absurd hn' hn⟩
    · by_cases hn : p.number = n
      · have hnone := hbefore (by omega)
        rw [if_pos hn, hnone]
        exact ⟨fun hlt => absurd hn (Nat.ne_of_gt hlt), by omega, fun _ => by omega⟩
      · rw [if_neg hn]
        exact ⟨fun hlt => hbefore (by omega), hall, fun hn' => absurd hn' hn⟩

/-- There is one way through a script. -/
theorem unique {l' : List State} {r' : End} (hr : Runs current p l r) (hr' : Runs current p l' r') : l = l' ∧ r = r' := by
  induction hr generalizing l' with
  | last h =>
    cases hr' with
    | last h' =>
      cases h.symm.trans h'
      exact ⟨rfl, rfl⟩
    | next h' => cases h.symm.trans h'
  | next h _ ih =>
    cases hr' with
    | last h' => cases h.symm.trans h'
    | next h' hrest =>
      cases h.symm.trans h'
      obtain ⟨rfl, rfl⟩ := ih hrest
      exact ⟨rfl, rfl⟩

end Runs

/-! ### Every script runs to its end -/

/-- The turns from a state on come to an end. -/
def EndsWith (current : Nat) (p : State) (r : End) : Prop := ∃ l, Runs current p l r

theorem endsWith_turn (hq : turn current p = .inl q) (hend : EndsWith current q r) : EndsWith current p r := by
  obtain ⟨l, hl⟩ := hend
  exact ⟨p :: l, .next hq hl⟩

theorem endsWith_last (hr : turn current p = .inr r) : EndsWith current p r := ⟨[p], .last hr⟩

/-- Where the conditions of a statement lead, the turns lead. -/
theorem Checks.endsWith {o : Outcome}
    (hrest : match o with
      | .error e h => r = .error e h
      | .ok (false, u) h => EndsWith current ⟨.statement, n + 1, { u with offset := stop }, h⟩ r
      | .ok (true, u) h => EndsWith current ⟨.operator stop, n, u, h⟩ r)
    (ho : Checks current s g o) :
    EndsWith current ⟨.condition stop, n, s, g⟩ r := by
  have hturn (s : Script) (g : Game) : turn current ⟨.condition stop, n, s, g⟩ = takeCondition current stop n s g := rfl
  induction ho with
  | unread hword => exact endsWith_last (by rw [hturn, takeCondition, hword, hrest])
  | all hword => exact endsWith_turn (by rw [hturn, takeCondition, hword]; rfl) hrest
  | faults hword hcode hcheck =>
    exact endsWith_last (by rw [hturn, takeCondition, hword]; simp only [if_neg hcode, hcheck, hrest])
  | fails hword hcode hcheck =>
    exact endsWith_turn (by rw [hturn, takeCondition, hword]; simp only [if_neg hcode, hcheck]) hrest
  | holds hword hcode hcheck _ ih =>
    exact endsWith_turn (by rw [hturn, takeCondition, hword]; simp only [if_neg hcode, hcheck]) (ih hrest)

theorem Executes.endsWith {o : Outcome}
    (hrest : match o with
      | .error e h => r = .error e h
      | .ok (false, u) h => EndsWith current ⟨.statement, n + 1, { u with offset := stop }, h⟩ r
      | .ok (true, u) h => EndsWith current ⟨.statement, n + 1, { u with offset := u.data.size }, h⟩ r)
    (ho : Executes current n stop s g o) :
    EndsWith current ⟨.operator stop, n, s, g⟩ r := by
  have hturn (s : Script) (g : Game) : turn current ⟨.operator stop, n, s, g⟩ = takeOperator current stop n s g := rfl
  induction ho with
  | done hend => exact endsWith_turn (by rw [hturn, takeOperator, if_pos hend]) hrest
  | unread hinside hword =>
    exact endsWith_last (by rw [hturn, takeOperator, if_neg (Nat.not_le.mpr hinside), hword, hrest])
  | breaks hinside hword =>
    exact endsWith_turn (by rw [hturn, takeOperator, if_neg (Nat.not_le.mpr hinside), hword]; rfl) hrest
  | faults hinside hword hcode hexec =>
    refine endsWith_last ?_
    rw [hturn, takeOperator, if_neg (Nat.not_le.mpr hinside), hword]
    simp only [if_neg hcode, hexec, hrest]
  | acts hinside hword hcode hexec _ ih =>
    refine endsWith_turn ?_ (ih hrest)
    rw [hturn, takeOperator, if_neg (Nat.not_le.mpr hinside), hword]
    simp only [if_neg hcode, hexec]

/-- Where a statement leads, its turns lead. -/
theorem endsWith_statement {f : Nat → Game → End}
    (hnext : ∀ next h, s.offset < next → EndsWith current ⟨.statement, n + 1, { s with offset := next }, h⟩ (f next h))
    (hinside : s.offset < s.data.size) :
    EndsWith current ⟨.statement, n, s, g⟩
      (match runStatement current n s g with
        | .error e h => .error e h
        | .ok (next, _) h => f next h) := by
  have hturn : turn current ⟨.statement, n, s, g⟩ = beginStatement n s g := rfl
  cases hword : word s with
  | error e =>
    rw [runStatement_apply, hword]
    exact endsWith_last (by rw [hturn, beginStatement, if_pos hinside, hword])
  | ok r =>
    obtain ⟨w, t⟩ := r
    have hdata : t.data = s.data := Keeps.word _ _ _ hword
    by_cases hstop : w.toUInt16.toNat ≤ s.offset
    · rw [runStatement_apply, hword]
      simp only [if_pos hstop]
      exact endsWith_last (by rw [hturn, beginStatement, if_pos hinside, hword]; simp only [if_pos hstop])
    have hbegin : turn current ⟨.statement, n, s, g⟩ = .inl ⟨.condition w.toUInt16.toNat, n, t, g⟩ := by
      rw [hturn, beginStatement, if_pos hinside, hword]
      simp only [if_neg hstop]
    obtain ⟨o, hchecks, ho⟩ := runStatement_outcome current n g hword (Nat.lt_of_not_le hstop)
    refine endsWith_turn hbegin (Checks.endsWith ?_ hchecks)
    match o, hchecks, ho with
    | .error e h, _, ho => simp only [ho]
    | .ok (false, u) h, hchecks, ho =>
      simp only [ho]
      have hkept : u.data = s.data := (hchecks.data rfl).trans hdata
      rw [hkept]
      exact hnext _ h (Nat.lt_of_not_le hstop)
    | .ok (true, u) h, hchecks, ⟨o, hexecutes, ho⟩ =>
      have hkept : u.data = s.data := (hchecks.data rfl).trans hdata
      refine Executes.endsWith ?_ hexecutes
      match o, hexecutes, ho with
      | .error e k, _, ho => simp only [ho]
      | .ok (false, v) k, hexecutes, ho =>
        simp only [ho]
        rw [(hexecutes.data rfl).trans hkept]
        exact hnext _ k (Nat.lt_of_not_le hstop)
      | .ok (true, v) k, hexecutes, ho =>
        simp only [ho]
        rw [(hexecutes.data rfl).trans hkept]
        exact hnext _ k hinside

theorem discard_apply {α : Type} (m : Game.M α) (g : Game) :
    discard m g =
      match m g with
      | .ok _ h => .ok () h
      | .error e h => .error e h := by
  change EStateM.map _ m g = _
  unfold EStateM.map
  cases m g <;> rfl

/-- The turns from a statement on come to what the interpreter with its bounds gives. -/
theorem endsWith_runFrom (current n : Nat) (s : Script) (g : Game) :
    EndsWith current ⟨.statement, n, s, g⟩ ((discard (runFrom current n s) : Game.M Unit) g) := by
  induction hsize : s.data.size - s.offset using Nat.strongRecOn generalizing n s g with
  | ind size ih =>
    rw [discard_apply, runFrom_apply]
    by_cases hinside : s.offset < s.data.size
    · rw [if_pos hinside]
      have hend := endsWith_statement (n := n) (g := g) (fun next h hnext =>
        ih (s.data.size - next) (by omega) (n + 1) { s with offset := next } h rfl) hinside
      cases hs : runStatement current n s g with
      | error e h => rwa [hs] at hend
      | ok r h =>
        simpa only [hs, discard_apply] using hend
    · rw [if_neg hinside]
      exact endsWith_last (by change beginStatement n s g = _; rw [beginStatement, if_neg hinside])

/-- Every script comes to its end, whatever its bytes and the game are. It has no more statements than bytes, and each of
them begins behind the one before it; a statement takes one turn to begin and has no more conditions and operators than
words fit into the script. A condition or an operator that succeeds moves on by the word of its code at least. -/
theorem script_ends (current : Nat) :
    (∀ (data : ByteArray) (g : Game), ∃ l, Runs current ⟨.statement, 0, { data }, g⟩ l (Game.runScript current data g) ∧
      (starts l).Pairwise (· < ·) ∧ (starts l).length ≤ data.size ∧
      ∀ n, 2 * l.countP (·.number = n) ≤ data.size + 2) ∧
    (∀ code s t u g h b, word s = .ok (code, t) → checkCondition current code t g = .ok (b, u) h → s.offset + 2 ≤ u.offset) ∧
    ∀ n code s t u g h, word s = .ok (code, t) → execCode current n code t g = .ok ((), u) h → s.offset + 2 ≤ u.offset := by
  refine ⟨fun data g => ?_, fun _ _ _ _ _ _ _ => checkCondition_moves, fun _ _ _ _ _ _ _ => execCode_moves⟩
  obtain ⟨l, hl⟩ := endsWith_runFrom current 0 { data } g
  exact ⟨l, hl, hl.starts_increase, hl.length_starts, fun n => (hl.countP_number n).2.1⟩

/-- An operator that takes more than its statement has. -/
def overrunScript : ByteArray := Bytes.ofList [8, 0, 10, 0, 0, 0, 0xD4, 0x17, 12, 0, 0, 0]

/-- Behind that operator the script goes back to where the statement ends. -/
theorem script_ends_overrun :
    (∃ l, Runs 0 ⟨.statement, 0, { data := overrunScript }, default⟩ l (Game.runScript 0 overrunScript default) ∧
      l.map (·.script.offset) = [0, 2, 4, 6, 10, 8, 10, 12, 12] ∧
      (starts l).Pairwise (· < ·) ∧ (starts l).length ≤ overrunScript.size ∧
      ∀ n, 2 * l.countP (·.number = n) ≤ overrunScript.size + 2) ∧
    (∃ t u h, word ⟨overrunScript, 2⟩ = .ok (10, t) ∧ checkCondition 0 10 t default = .ok (true, u) h ∧ 2 + 2 ≤ u.offset) ∧
    ∃ t u h, word ⟨overrunScript, 6⟩ = .ok (6100, t) ∧ execCode 0 0 6100 t default = .ok ((), u) h ∧ 6 + 2 ≤ u.offset := by
  have hplaces : ∃ l r, Runs 0 ⟨.statement, 0, { data := overrunScript }, default⟩ l r ∧
      l.map (·.script.offset) = [0, 2, 4, 6, 10, 8, 10, 12, 12] :=
    ⟨_, _, .next rfl (.next rfl (.next rfl (.next rfl (.next rfl (.next rfl (.next rfl (.next rfl (.last rfl)))))))), rfl⟩
  have hcode : word ⟨overrunScript, 2⟩ = .ok (10, ⟨overrunScript, 4⟩) := rfl
  have hcheck : checkCondition 0 10 ⟨overrunScript, 4⟩ default = .ok (true, ⟨overrunScript, 4⟩) default := rfl
  have hop : word ⟨overrunScript, 6⟩ = .ok (6100, ⟨overrunScript, 8⟩) := rfl
  have hexec : ∃ h, execCode 0 0 6100 ⟨overrunScript, 8⟩ default = .ok ((), ⟨overrunScript, 10⟩) h := ⟨_, rfl⟩
  obtain ⟨l, r, hl, hplaces⟩ := hplaces
  obtain ⟨h, hexec⟩ := hexec
  obtain ⟨hruns, hconditions, hoperators⟩ := script_ends 0
  obtain ⟨l', hl', hstarts⟩ := hruns overrunScript default
  obtain ⟨rfl, -⟩ := hl.unique hl'
  exact ⟨⟨l, hl', hplaces, hstarts⟩, ⟨_, _, _, hcode, hcheck, hconditions _ _ _ _ _ _ _ hcode hcheck⟩,
    ⟨_, _, _, hop, hexec, hoperators _ _ _ _ _ _ _ hop hexec⟩⟩

end Adventure.Interpreter
