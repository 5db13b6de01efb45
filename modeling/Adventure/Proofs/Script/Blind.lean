import Adventure.Proofs.Game.Blind
import Adventure.Proofs.Script.Closure

/-! Scripts see neither pictures nor the numbers of sounds: in games that are alike, marks included,
a script does the same. -/

namespace Adventure

namespace Interpreter

variable {α β : Type} {m n : Interpreter α}

/-- A step of a script that comes to the same in games that are alike, wherever the script is. -/
def Blind (m : Interpreter α) : Prop := ∀ s, Game.Blind Eq (m s)

namespace Blind

theorem value (a : α) : Blind (pure a) := fun _ => Game.Blind.value _

theorem fault (e : GameError) : Blind (throw e : Interpreter α) := fun _ _ _ _ => rfl

theorem bind {f : α → Interpreter β} (hm : Blind m) (hf : ∀ a, Blind (f a)) : Blind (m >>= f) := fun s =>
  (hm s).bind fun r => hf r.1 r.2

theorem ite {c : Prop} [Decidable c] (hm : Blind m) (hn : Blind n) : Blind (if c then m else n) := by
  split
  · exact hm
  · exact hn

/-- A step that is taken or not, and what follows. -/
theorem first {c : Prop} [Decidable c] {m : Interpreter Unit} (hm : Blind m) (hn : Blind n) : Blind (do
    if c then m
    n) := ite (hm.bind fun _ => hn) hn

theorem read (m : Operand α) : Blind (read m) := by
  intro s
  unfold Interpreter.read
  cases m s with
  | ok r => exact Game.Blind.value r
  | error e => exact Game.Blind.fault e

theorem lift (e : Except GameError α) : Blind (ofExcept e : Interpreter α) := by
  cases e with
  | ok a => exact value a
  | error e => exact fault e

theorem place : Blind (get : Interpreter Script) := fun _ => Game.Blind.value _

/-- What a script does by steps of the game that come to the same. -/
theorem stepBoth {m n : Game.M α} (h : Game.Level Eq m n) (s : Script) :
    Game.Level Eq ((liftM m : Interpreter α) s) ((liftM n : Interpreter α) s) := Abreast.bind h fun _ => Abreast.value _

theorem step {m : Game.M α} (hm : Game.Blind Eq m) : Blind (liftM m : Interpreter α) := stepBoth hm

/-- A step that looks at nothing of the game that may differ. -/
theorem look {f : Game → Interpreter α} (hread : ∀ g, f g = f g.bare) (hf : ∀ g, Blind (f g)) : Blind (game >>= f) :=
  fun s => Game.Blind.look (f := fun g => f g s) (fun g => congrFun (hread g) s) fun g => hf g s

/-- A step that looks at a game comes to the same when it is about games that are alike. -/
theorem lookBoth {f : Game → Interpreter α} (hf : ∀ g g' s, g.Alike Eq g' → Game.Level Eq (f g s) (f g' s)) :
    Blind (game >>= f) :=
  fun s => Abreast.look (f := fun g => f g s) (g := fun g => f g s) fun g g' h => hf g g' s h

/-- A step that sees besides whether the last sound is over; that does not depend on its number. -/
theorem lookSilent {f : Bool → Game → Interpreter α} (hread : ∀ silent g, f silent g = f silent g.bare)
    (hf : ∀ silent g, Blind (f silent g)) : Blind (game >>= fun g => f g.soundOver g) := lookBoth fun g g' s h => by
  rw [hread _ g, hread _ g', Game.Blind.soundOver h, h.bare]
  exact hf _ _ s

theorem onGame {f : Game → Game} (hf : Game.Plain f) : Blind (onGame f) := step (Game.Blind.change hf)

theorem onTables (f : SceneTables → SceneTables) : Blind (onTables f) := step (Game.Blind.onTables f)

theorem onObject (i : Nat) (f : SceneObject → SceneObject) : Blind (onObject i f) := step (Game.Blind.onObject i f)

end Blind

end Interpreter

/-! ### Conditions -/

/-- Of two games that are alike the same conditions hold. -/
theorem Condition.holds_alike {g g' : Game} (h : g.Alike Eq g') (current : Nat) (roll : UInt16) (c : Condition) :
    c.holds g current roll = c.holds g' current roll := by
  cases c with
  | click =>
    have hleft : g.leftClick = g'.leftClick := congrArg Marks.leftClick h.marks
    have hright : g.rightClick = g'.rightClick := congrArg Marks.rightClick h.marks
    simp only [holds, clickHolds, hleft, hright]
  | _ => exact h.same (Condition.holds · current roll _) fun _ => rfl

/-! ### Operators -/

namespace Operator

open Interpreter (Blind)
open Interpreter.Blind

theorem blind_withSlot (current size : Nat) {step : ObjectRef → Nat → Interpreter Unit}
    (hstep : ∀ r i, Blind (step r i)) : Blind (withSlot current size step) := by
  refine look (fun _ => rfl) fun g => (read _).bind fun ref => ?_
  split
  · exact hstep _ _
  · exact read _

theorem blind_startAs (i : Nat) (mode : Int16) : Blind (startAs i mode) :=
  look (fun _ => rfl) fun _ => (onObject _ _).bind fun _ => (step (Game.Blind.startObject i)).bind fun _ => onObject _ _

/-- An object is wiped from frames that may differ, with backgrounds that may differ. -/
theorem blind_wipe (i : Nat) : Blind (wipe i) := by
  refine lookBoth fun g g' s h => ?_
  rw [Game.object, Game.object, h.same Game.tables fun _ => rfl]
  exact Abreast.bind (lift (g'.tables.frameHeader (g'.tables.object i).frameNum) s) fun r =>
    stepBoth (Game.Blind.drawn _ _) r.2

theorem blind_vanish (i : Nat) : Blind (vanish i) :=
  look (fun _ => rfl) fun _ => ite ((onObject _ _).bind fun _ => look (fun _ => rfl) fun _ =>
    first (blind_wipe i) (onObject _ _)) (value _)

theorem blind_animate (i : Nat) : Blind (animate i) := (blind_startAs i 1).bind fun _ => onObject _ _

theorem blind_freeze (i : Nat) : Blind (freeze i) :=
  look (fun _ => rfl) fun _ => ite (onObject _ _) (blind_startAs i 3)

theorem blind_state (current : Nat) : Blind (execState current) := by
  refine blind_withSlot _ _ fun _ i => (read _).bind fun n => ?_
  split
  · exact blind_vanish i
  · exact blind_animate i
  · exact blind_freeze i
  · exact value _

theorem blind_move (current : Nat) (a : Axis) : Blind (execMove current a) :=
  look (fun _ => rfl) fun _ => ite (read _) ((read _).bind fun _ => (read _).bind fun _ => onObject _ _)

theorem blind_coordinate (current : Nat) (c : Coordinate) : Blind (execCoordinate current c) :=
  blind_withSlot _ _ fun _ _ => look (fun _ => rfl) fun _ => (read _).bind fun _ => onObject _ _

theorem blind_flip (current : Nat) (initial : Bool) : Blind (execFlip current initial) :=
  blind_withSlot _ _ fun _ _ => (read _).bind fun _ => onObject _ _

theorem blind_frame (current : Nat) (withFrame : Bool) (anchor : Anchor) : Blind (execFrame current withFrame anchor) :=
  blind_withSlot _ _ fun _ _ => (read _).bind fun _ => look (fun _ => rfl) fun _ => (lift _).bind fun _ => onObject _ _

theorem blind_gridFrame (current : Nat) (withFrame : Bool) (rows : Rows) :
    Blind (execGridFrame current withFrame rows) := by
  refine blind_withSlot _ _ fun _ _ => look (fun _ => rfl) fun _ => (read _).bind fun o => ?_
  split
  · exact onObject _ _
  · exact read _

theorem blind_objectVar (current : Nat) : Blind (execObjectVar current) :=
  (read _).bind fun _ => blind_withSlot _ _ fun _ _ => (lift _).bind fun _ => look (fun _ => rfl) fun _ =>
    (read _).bind fun _ => onObject _ _

theorem blind_approach (current : Nat) (a : Axis) : Blind (execApproach current a) :=
  blind_withSlot _ _ fun _ _ => (read _).bind fun _ => (read _).bind fun _ => (read _).bind fun _ =>
    (read _).bind fun _ => look (fun _ => rfl) fun _ => (read _).bind fun _ => onObject _ _

theorem blind_setMode (slot : Option Nat) (mode random : Int16) : Blind (setMode slot mode random) := by
  cases slot with
  | some i => exact onObject _ _
  | none => exact value _

theorem blind_mode (current : Nat) : Blind (execMode current) :=
  look (fun _ => rfl) fun _ => (read _).bind fun _ => (read _).bind fun _ =>
    ite ((read _).bind fun _ => blind_setMode _ _ _) ((value _).bind fun _ => blind_setMode _ _ _)

theorem blind_initPlace (current : Nat) : Blind (execInitPlace current) :=
  blind_withSlot _ _ fun _ _ => (read _).bind fun _ => (onObject _ _).bind fun _ => (read _).bind fun _ => onObject _ _

theorem blind_initPoint (current : Nat) : Blind (execInitPoint current) :=
  blind_withSlot _ _ fun _ _ => look (fun _ => rfl) fun _ => (read _).bind fun _ => (read _).bind fun _ => onObject _ _

theorem blind_initMotion (current : Nat) (withFrame : Bool) : Blind (execInitMotion current withFrame) :=
  blind_withSlot _ _ fun _ _ => (read _).bind fun _ => (onObject _ _).bind fun _ =>
    ite ((read _).bind fun _ => onObject _ _) ((value _).bind fun _ => onObject _ _)

theorem blind_var : Blind execVar :=
  (read _).bind fun _ => look (fun _ => rfl) fun _ => (read _).bind fun _ => step (Game.Blind.setVar _ _)

theorem blind_varFromScene : Blind execVarFromScene :=
  (read _).bind fun _ => look (fun _ => rfl) fun _ => step (Game.Blind.setVar _ _)

theorem blind_box (current statement : Nat) (on : Bool) : Blind (execBox current statement on) :=
  (read _).bind fun _ => (read _).bind fun _ => ite (value _) ((lift _).bind fun _ => onTables _)

theorem blind_shiftBox (a : Axis) (start group index : Nat) : Blind (shiftBox a start group index) := by
  refine look (fun _ => rfl) fun _ => ?_
  cases a
  all_goals
    exact (read _).bind fun _ => (read _).bind fun _ => (read _).bind fun _ => (read _).bind fun _ => onTables _

theorem blind_shiftAll (a : Axis) (start : Nat) (l : List (Nat × Nat)) : Blind (shiftAll a start l) := by
  induction l with
  | nil => exact value _
  | cons s l ih => exact (blind_shiftBox _ _ _ _).bind fun _ => ih

theorem blind_shiftBoxes (a : Axis) : Blind (execShiftBoxes a) :=
  (read _).bind fun _ => look (fun _ => rfl) fun _ => (blind_shiftAll _ _ _).bind fun _ => read _

theorem blind_boxAround (current : Nat) : Blind (execBoxAround current) :=
  (read _).bind fun _ => (read _).bind fun _ => blind_withSlot _ _ fun _ _ => look (fun _ => rfl) fun _ =>
    ite (read _) ((read _).bind fun _ => (lift _).bind fun _ => onTables _)

theorem blind_clipBoxes : Blind execClipBoxes :=
  (read _).bind fun _ => (read _).bind fun _ => (read _).bind fun _ => (read _).bind fun _ => onTables _

theorem blind_status (current : Nat) : Blind (execStatus current) :=
  look (fun _ => rfl) fun _ => (lift _).bind fun _ => (read _).bind fun _ => onTables _

theorem blind_takeObject (i : Nat) : Blind (takeObject i) := by
  have add (g : Game) : Blind (do
      let frame ← ofExcept (g.tables.frame (g.object i).frameNumPrev)
      let data ← ofExcept (GameError.wrap .codec frame.decode)
      liftM <| Game.onBag fun b => { b with
        entries := b.entries ++ [⟨(g.object i).name, data⟩]
        selected := if b.selected = -1 then 0 else b.selected } : Interpreter Unit) :=
    (lift _).bind fun _ => (lift _).bind fun _ => step (Game.Blind.onBag _)
  exact look (fun _ => rfl) fun g => ite (ite ((fault _).bind fun _ => add g) (add g)) (value _)

theorem blind_drop : Blind execDrop := (read _).bind fun _ => step (Game.Blind.onBag _)

theorem blind_sound (current : Nat) (strict : Bool) : Blind (execSound current strict) := by
  refine (read _).bind fun n => (read _).bind fun priority => lookSilent (f := fun silent g => do
    let above : Bool := if strict then priority > g.sound.priority else priority ≥ g.sound.priority
    if above && !silent then return
    let t := g.tables
    let anim ← ofExcept (do t.animation (← t.animationOf (g.object current)))
    let i ← ofExcept (Table.sounds.check t.sounds.size (n + anim.firstSound.toInt - 1))
    liftM (Game.startSound t.sounds[i])
    Interpreter.onGame fun g => { g with sound := { g.sound with priority } }) (fun _ _ => rfl) fun _ _ => ?_
  exact ite (value _) <| (lift _).bind fun _ => (lift _).bind fun _ => (step (Game.Blind.startSound _)).bind fun _ =>
    onGame fun _ => ⟨rfl, rfl, rfl⟩

theorem blind_dialogue : Blind execDialogue := by
  have note (f : DialogueRequest → DialogueRequest) : Blind (onRequest f) := onGame fun _ => ⟨rfl, rfl, rfl⟩
  exact (read _).bind fun _ => (note _).bind fun _ => (read _).bind fun _ => (note _).bind fun _ =>
    (read _).bind fun _ => (note _).bind fun _ => (read _).bind fun _ => (note _).bind fun _ =>
      onGame fun _ => ⟨rfl, rfl, rfl⟩

/-- The scene that is asked for is the same in both games. -/
theorem blind_request (r : Option NextScene) : Blind (Interpreter.onGame fun g => { g with requested := r }) :=
  step (Abreast.modifies fun _ _ h => ⟨h.bare, h.voices, h.room, congrArg (fun m => { m with requested := r }) h.marks⟩)

theorem blind_exit (keep : Bool) : Blind (execExit keep) := by
  refine (read _).bind fun n => look (fun _ => rfl) fun g => ?_
  split
  · exact value _
  · exact (blind_request _).bind fun _ => onTables _

/-- Whatever an operator does comes to the same. -/
theorem blind_exec (current statement : Nat) (op : Operator) : Blind (op.exec current statement) := by
  cases op with
  | state => exact blind_state current
  | move a => exact blind_move current a
  | coordinate c => exact blind_coordinate current c
  | flip initial => exact blind_flip current initial
  | frame withFrame anchor => exact blind_frame current withFrame anchor
  | gridFrame withFrame rows => exact blind_gridFrame current withFrame rows
  | objectVar => exact blind_objectVar current
  | approach a => exact blind_approach current a
  | mode => exact blind_mode current
  | initPlace => exact blind_initPlace current
  | initPoint => exact blind_initPoint current
  | initMotion withFrame => exact blind_initMotion current withFrame
  | var => exact blind_var
  | varFromScene => exact blind_varFromScene
  | box on => exact blind_box current statement on
  | shiftBoxes a => exact blind_shiftBoxes a
  | boxAround => exact blind_boxAround current
  | clipBoxes => exact blind_clipBoxes
  | status => exact blind_status current
  | take => exact blind_withSlot _ _ fun _ _ => blind_takeObject _
  | drop => exact blind_drop
  | sound strict => exact blind_sound current strict
  | dialogue => exact blind_dialogue
  | exit keep => exact blind_exit keep

end Operator

namespace Interpreter.Blind

theorem checkCondition (current : Nat) (code : Int16) : Blind (checkCondition current code) := by
  unfold Interpreter.checkCondition
  split
  · exact fault _
  · refine lookBoth fun g g' s h => ?_
    have hrandom : g.random = g'.random := h.same Game.random fun _ => rfl
    simp only [hrandom, Condition.holds_alike h]
    have roll (random : Random) : Blind (Interpreter.onGame fun g => { g with random }) :=
      onGame fun _ => ⟨rfl, rfl, rfl⟩
    exact first (roll _) (read _) s

theorem closed : Closed Blind := ⟨value, fault, bind, read, place, checkCondition, Operator.blind_exec⟩

end Interpreter.Blind

namespace Game.Blind

theorem runScript (current : Nat) (data : ByteArray) : Blind Eq (runScript current data) :=
  (Interpreter.Blind.closed.runStatements current (data.size + 1) 0 { data }).discard

theorem runScripts (l : List Nat) : Blind Eq (runScripts l) := by
  induction l with
  | nil => exact value _
  | cons i l ih =>
    exact look (fun _ => rfl) fun _ => ite ((lift _).bind fun _ => (runScript _ _).bind fun _ => ih) ih

end Game.Blind

end Adventure
