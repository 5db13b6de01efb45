import Adventure.Script.Run

/-! What holds of whole scripts. What holds of doing nothing, of failing, of reading and of one thing after the other
holds of every script, if it holds of finding out whether one condition holds and of executing one operator. -/

namespace Adventure

namespace Interpreter

/-- What is put together of steps of scripts that are as said is as said, and so is whatever one condition or one
operator does. -/
structure Closed (P : {α : Type} → Interpreter α → Prop) : Prop where
  value : ∀ {α : Type} (a : α), P (pure a)
  fault : ∀ {α : Type} (e : GameError), P (throw e : Interpreter α)
  bind : ∀ {α β : Type} {m : Interpreter α} {f : α → Interpreter β}, P m → (∀ a, P (f a)) → P (m >>= f)
  read : ∀ {α : Type} (m : Operand α), P (read m)
  place : P (get : Interpreter Script)
  condition : ∀ (current : Nat) (code : Int16), P (checkCondition current code)
  operator : ∀ (current statement : Nat) (op : Operator), P (op.exec current statement)

namespace Closed

variable {P : {α : Type} → Interpreter α → Prop}

theorem ite {α : Type} {c : Prop} [Decidable c] {m n : Interpreter α} (hm : P m) (hn : P n) : P (if c then m else n) := by
  split
  · exact hm
  · exact hn

variable (hP : Closed P)
include hP

theorem conditionsHold (current fuel : Nat) : P (conditionsHold current fuel) := by
  induction fuel with
  | zero => exact hP.value _
  | succ fuel ih =>
    refine hP.bind (hP.read _) fun _ => ite (hP.value _) ?_
    exact hP.bind (hP.condition _ _) fun _ => ite ih (hP.value _)

theorem execCode (current statement : Nat) (code : Int16) : P (execCode current statement code) := by
  unfold Interpreter.execCode
  split
  · exact hP.fault _
  · exact hP.operator _ _ _

theorem execOperators (current statement stop fuel : Nat) : P (execOperators current statement stop fuel) := by
  induction fuel with
  | zero => exact hP.value _
  | succ fuel ih =>
    refine hP.bind hP.place fun _ => ite (hP.value _) (hP.bind (hP.read _) fun _ => ite (hP.value _) ?_)
    exact hP.bind (hP.execCode _ _ _) fun _ => ih

theorem runStatement (current statement : Nat) : P (runStatement current statement) := by
  -- What a statement does once its end is known to lie behind its start.
  have behind (stop bound size : Nat) : P (do
      if ← Interpreter.conditionsHold current bound then
        if ← Interpreter.execOperators current statement stop bound then return size
      return stop) := by
    refine hP.bind (hP.conditionsHold _ _) fun _ => ite ?_ (hP.value _)
    exact hP.bind (hP.execOperators _ _ _ _) fun _ => ite (hP.value _) (hP.value _)
  refine hP.bind hP.place fun s => hP.bind (hP.read _) fun _ => ite ?_ (behind _ _ _)
  exact hP.bind (hP.fault _) fun _ => behind _ _ _

/-- What holds of all that one statement is made of holds of however many statements. -/
theorem runStatements (current fuel statement : Nat) : P (runStatements current fuel statement) := by
  induction fuel generalizing statement with
  | zero => exact hP.value _
  | succ fuel ih =>
    refine hP.bind hP.place fun _ => ite ?_ (hP.value _)
    exact hP.bind (hP.runStatement _ _) fun _ => hP.bind (hP.read _) fun _ => ih _

end Closed

end Interpreter

end Adventure
