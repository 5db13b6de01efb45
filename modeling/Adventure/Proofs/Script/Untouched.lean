import Adventure.Proofs.Script.Alignment
import Adventure.Proofs.Within

/-! Finding out whether a condition holds. It moves in the script, but changes neither the script nor the game, whether the
condition holds or not or fails; only a condition of chance takes a random number. -/

namespace Adventure

namespace Operand

variable {α β : Type}

/-- Reading moves in the script, but stays in it. -/
def Keeps (m : Operand α) : Prop := ∀ s a t, m s = .ok (a, t) → t.data = s.data

/-- Reading moves on in the script, if it moves. -/
def Onward (m : Operand α) : Prop := ∀ s a t, m s = .ok (a, t) → t.data = s.data ∧ s.offset ≤ t.offset

theorem Onward.keeps {m : Operand α} (hm : Onward m) : Keeps m := fun s a t h => (hm s a t h).1

theorem Reads.onward {m : Operand α} {l : List Kind} (hm : Reads m l) : Onward m := by
  intro s a t h
  obtain rfl : t = past l s := hm s a t h trivial
  exact ⟨rfl, le_span _ _ l⟩

theorem Keeps.word : Keeps word := reads_word.onward.keeps

namespace Onward

theorem bind {m : Operand β} {f : β → Operand α} (hm : Onward m) (hf : ∀ b, Onward (f b)) : Onward (m >>= f) := by
  intro s a t h
  obtain ⟨b, u, hu, ht⟩ := bind_ok h
  obtain ⟨hdata, hle⟩ := hm s b u hu
  obtain ⟨hdata', hle'⟩ := hf b u a t ht
  exact ⟨hdata'.trans hdata, Nat.le_trans hle hle'⟩

theorem value (a : α) : Onward (pure a) := Reads.onward (ReadsIf.value a)

theorem lift (e : Except GameError α) : Onward (liftM e : Operand α) := Reads.onward (ReadsIf.lift e)

theorem skip (n : Nat) : Onward (skip n) := by
  intro s a t h
  cases h
  exact ⟨rfl, Nat.le_add_right _ n⟩

theorem word : Onward word := reads_word.onward

theorem int : Onward int := reads_int.onward

theorem object (t : SceneTables) : Onward (object t) := (reads_object t).onward

theorem test (v : Int16) : Onward (test v) := (reads_test v).onward

theorem index (t : Table) (size : Nat) : Onward (index t size) := (reads_index t size).onward

theorem point (t : SceneTables) (o : SceneObject) (a : Axis) : Onward (point t o a) := (reads_point t o a).onward

end Onward

end Operand

/-! ### Conditions -/

namespace Condition

open Operand

variable (g : Game) (current : Nat)

theorem onward_withObject {test : SceneObject → Operand Bool} (htest : ∀ o, Onward (test o)) :
    Onward (withObject g current test) := by
  refine (Onward.object _).bind fun ref => ?_
  split
  · exact htest _
  · exact .value _

theorem onward_withDrawn {test : SceneObject → Operand Bool} (htest : ∀ o, Onward (test o)) :
    Onward (withDrawn g current test) := by
  refine onward_withObject g current fun o => ?_
  split
  · exact .value _
  · exact htest o

theorem onward_equals (f : SceneObject → Int16) : Onward (equals g current f) := by
  refine (Onward.object _).bind fun ref => ?_
  split
  · exact Onward.word.bind fun _ => .value _
  · exact (Onward.skip 2).bind fun _ => .value _

theorem onward_click : Onward (clickHolds g) := by
  refine Onward.int.bind fun n => ?_
  split <;> exact .value _

theorem onward_meetsRect : Onward (meetsRectHolds g current) := by
  refine (Onward.object _).bind fun ref => Onward.int.bind fun _ => Onward.int.bind fun _ => Onward.int.bind fun _ =>
    Onward.int.bind fun _ => ?_
  split
  · exact .value _
  dsimp only
  split
  · exact .value _
  · exact (Onward.lift _).bind fun _ => .value _

theorem onward_spans (a : Axis) (m : Moment) : Onward (spansHolds g current a m) := by
  refine (Onward.object _).bind fun ref => ?_
  split
  · exact (Onward.skip 14).bind fun _ => .value _
  dsimp only
  split
  · exact (Onward.skip 14).bind fun _ => .value _
  · exact (reads_spans _ _ _ _).onward

theorem onward_frame (m : Moment) : Onward (frameHolds g current m) :=
  onward_withDrawn g current fun _ => (Onward.lift _).bind fun _ => .test _

theorem onward_motion (m : Moment) : Onward (motionHolds g current m) := by
  refine (Onward.object _).bind fun ref => ?_
  split
  · exact .value _
  dsimp only
  split
  · exact .value _
  refine (Onward.lift _).bind fun _ => (Onward.lift _).bind fun _ => ?_
  split
  · exact (Onward.lift _).bind fun _ => (Onward.value _).bind fun _ => .test _
  · exact (Onward.value _).bind fun _ => .test _

theorem onward_overlap (a : Axis) : Onward (overlapHolds g current a) :=
  onward_withDrawn g current fun _ => (Onward.point _ _ _).bind fun _ => (Onward.point _ _ _).bind fun _ =>
    onward_withDrawn g current fun _ => (Onward.point _ _ _).bind fun _ => (Onward.point _ _ _).bind fun _ => .value _

theorem onward_height : Onward (heightHolds g current) := by
  refine (Onward.object _).bind fun ref => ?_
  split
  · exact (Onward.skip 4).bind fun _ => .value _
  · exact (Onward.lift _).bind fun _ => (Onward.lift _).bind fun _ => (Onward.lift _).bind fun _ => Onward.int.bind fun _ =>
      (reads_wrapped _ _).onward.bind fun _ => Onward.word.bind fun _ => .value _

theorem onward_box (hit : Bool) : Onward (boxHolds g current hit) :=
  Onward.word.bind fun _ => onward_withDrawn g current fun _ => (reads_corners _ _).onward.bind fun _ =>
    (Onward.lift _).bind fun _ => .value _

theorem onward_sight : Onward (sightHolds g current) :=
  Onward.word.bind fun _ => onward_withDrawn g current fun _ => (Onward.point _ _ _).bind fun _ =>
    (Onward.point _ _ _).bind fun _ => onward_withDrawn g current fun _ => (Onward.point _ _ _).bind fun _ =>
      (Onward.point _ _ _).bind fun _ => (Onward.lift _).bind fun _ => .value _

theorem onward_selected : Onward (selectedHolds g) := by
  refine reads_string.onward.bind fun name => ?_
  split <;> exact .value _

/-- A condition stays in its script and does not go back in it, whether or not it holds. -/
theorem onward_holds (roll : UInt16) (c : Condition) : Onward (c.holds g current roll) := by
  cases c with
  | always | lifeBar => exact .value _
  | chance => exact Onward.int.bind fun _ => .value _
  | key => exact ((Onward.index _ _).bind fun _ => .value _).bind fun _ => .value _
  | click => exact onward_click g
  | isSelf => exact (Onward.object _).bind fun _ => .value _
  | state m => exact onward_equals g current fun o => o.stateAt m
  | meetsRect => exact onward_meetsRect g current
  | spans a m => exact onward_spans g current a m
  | flip m => exact onward_equals g current fun o => o.flipAt m
  | frame m => exact onward_frame g current m
  | motion m => exact onward_motion g current m
  | objectVar => exact Onward.int.bind fun _ => onward_withObject g current fun _ => (Onward.lift _).bind fun _ => .test _
  | overlap a => exact onward_overlap g current a
  | height => exact onward_height g current
  | var => exact (Onward.index _ _).bind fun _ => .test _
  | action | exit => exact Onward.word.bind fun _ => .value _
  | box hit => exact onward_box g current hit
  | sight => exact onward_sight g current
  | selected => exact onward_selected g
  | dialogueEnded => exact (Onward.test _).bind fun _ => .value _

end Condition

/-- Two games differ at most in their random numbers. -/
def Game.Rolled (g h : Game) : Prop := h = { g with random := h.random }

theorem Game.Rolled.trans {g h k : Game} (hgh : g.Rolled h) (hhk : h.Rolled k) : g.Rolled k :=
  Eq.trans hhk (congrArg (fun x : Game => { x with random := k.random }) hgh)

namespace Interpreter

variable {current : Nat} {code : Int16} {s t : Script} {g h : Game}

/-- The game behind a condition: if the condition is one of chance, a random number was taken. -/
def rolled (code : Int16) (g : Game) : Game :=
  { g with random := if Condition.ofCode? code = some .chance then g.random.next.2 else g.random }

theorem bind_apply {α β : Type} (m : Interpreter α) (f : α → Interpreter β) (s : Script) (g : Game) :
    (m >>= f) s g =
      match m s g with
      | .ok (a, t) h => f a t h
      | .error e h => .error e h := by
  change EStateM.bind (m s) (fun p => f p.1 p.2) g = _
  unfold EStateM.bind
  cases m s g <;> rfl

theorem read_apply {α : Type} (m : Operand α) (s : Script) (g : Game) :
    read m s g =
      match m s with
      | .ok r => .ok r g
      | .error e => .error e g := by
  unfold read
  cases m s <;> rfl

/-- A condition is found out from the game, and then the game is as it was but for the random number. -/
theorem checkCondition_eq (current : Nat) (code : Int16) (s : Script) (g : Game) :
    checkCondition current code s g =
      match Condition.ofCode? code with
      | none => .error (.condition code) (rolled code g)
      | some c =>
        match c.holds g current g.random.next.1 s with
        | .ok r => .ok r (rolled code g)
        | .error e => .error e (rolled code g) := by
  unfold checkCondition rolled
  cases hc : Condition.ofCode? code with
  | none => rfl
  | some c =>
    have hread (k : Game) : read (c.holds g current g.random.next.1) s k =
        match c.holds g current g.random.next.1 s with
        | .ok r => .ok r k
        | .error e => .error e k := by
      rw [read_apply]
      cases c.holds g current g.random.next.1 s <;> rfl
    by_cases hchance : c = .chance
    · cases hchance
      exact hread _
    · have hcode : some c ≠ some Condition.chance := fun h => hchance (Option.some.inj h)
      simp only [if_neg hcode]
      refine Eq.trans ?_ (hread g)
      simp only [bind, StateT.bind, hchance, if_false]
      rfl

theorem after_checkCondition (current : Nat) (code : Int16) (s : Script) (g : Game) :
    after (checkCondition current code s) g = rolled code g := by
  rw [after, checkCondition_eq]
  cases Condition.ofCode? code with
  | none => rfl
  | some c =>
    dsimp only
    cases c.holds g current g.random.next.1 s <;> rfl

theorem rolled_of_after (hc : after (checkCondition current code s) g = h) : g.Rolled h := by
  rw [after_checkCondition] at hc
  cases hc
  rfl

theorem checkCondition_onward {b : Bool} (hs : checkCondition current code s g = .ok (b, t) h) :
    t.data = s.data ∧ s.offset ≤ t.offset := by
  rw [checkCondition_eq] at hs
  cases hc : Condition.ofCode? code with
  | none => rw [hc] at hs; cases hs
  | some c =>
    rw [hc] at hs
    cases hholds : c.holds g current g.random.next.1 s with
    | error e => simp only [hholds] at hs; cases hs
    | ok r =>
      simp only [hholds] at hs
      cases hs
      exact Condition.onward_holds g current _ c _ _ _ hholds

end Interpreter

end Adventure
