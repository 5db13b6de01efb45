import Adventure.Script.Condition
import Adventure.Script.Operator

/-! Running scripts. A script is a list of statements. A statement starts with the place
where it ends; conditions follow up to a zero word, and behind them operators, which are
executed if all conditions hold. -/

namespace Adventure

namespace Interpreter

open Operand (word)

/-- Finds out whether the condition of a code holds. -/
def checkCondition (current : Nat) (code : Int16) : Interpreter Bool := do
  match Condition.ofCode? code with
  | none => throw (.condition code)
  | some c =>
    let g ← game
    let (roll, random) := g.random.next
    if c = .chance then onGame fun g => { g with random }
    read (c.holds g current roll)

/-- All conditions of a statement hold. The first argument bounds their number. -/
def conditionsHold (current : Nat) : Nat → Interpreter Bool
  | 0 => return false
  | fuel + 1 => do
    let code ← read word
    if code = 0 then return true
    if ← checkCondition current code then conditionsHold current fuel else return false

/-- Executes the operator of a code. -/
def execCode (current statement : Nat) (code : Int16) : Interpreter Unit :=
  match Operator.ofCode? code with
  | none => throw (.operator code)
  | some op => op.exec current statement

/-- The code that ends a script. -/
def endCode : Int16 := 100

/-- Executes operators up to the end of their statement. Gives true when they end the
script. The last argument bounds their number. -/
def execOperators (current statement stop : Nat) : Nat → Interpreter Bool
  | 0 => return false
  | fuel + 1 => do
    if stop ≤ (← get).offset then return false
    let code ← read word
    if code = endCode then return true
    execCode current statement code
    execOperators current statement stop fuel

/-- Runs a statement and gives the place of what follows. Every condition and every
operator moves on, so that there are fewer of them than bytes. -/
def runStatement (current statement : Nat) : Interpreter Nat := do
  let s ← get
  let stop := (← read word).toUInt16.toNat
  if stop ≤ s.offset then throw (.statementEnd s.offset stop)
  let bound := s.data.size + 1
  if ← conditionsHold current bound then
    if ← execOperators current statement stop bound then return s.data.size
  return stop

/-- Runs the statements from number `statement` on; the first argument bounds how many. -/
def runStatements (current : Nat) : Nat → Nat → Interpreter Unit
  | 0, _ => pure ()
  | fuel + 1, statement => do
    let s ← get
    if s.offset < s.data.size then
      let next ← runStatement current statement
      read (Operand.jump next)
      runStatements current fuel (statement + 1)

end Interpreter

/-- Runs a script for an object. Each statement ends behind its start, so that there are
fewer of them than bytes. -/
def Game.runScript (current : Nat) (data : ByteArray) : Game.M Unit := do
  discard ((Interpreter.runStatements current (data.size + 1) 0).run { data })

end Adventure
