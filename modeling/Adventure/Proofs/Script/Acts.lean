import Adventure.Proofs.Game.Bag
import Adventure.Proofs.Game.Ground
import Adventure.Proofs.Script.Closure
import Mathlib.Logic.Relation

/-! What scripts can do. An object is changed in a handful of ways, and only frames and motions that
are there are given to it; beside the objects, scripts act on boxes, variables and the bag, and ask for
scenes and dialogues. The ground of the game stays, and of its core all but the bag, the numbers of boxes
that are kept for the next scene, and the scene that is asked for. -/

namespace Adventure

namespace SceneTables

theorem object_modifyObject (t : SceneTables) (i j : Nat) (f : SceneObject → SceneObject) :
    (t.modifyObject i f).object j = if i = j ∧ j < maxObjects then f (t.object j) else t.object j := by
  unfold modifyObject object modifySlot
  by_cases hj : j < maxObjects
  · by_cases hij : i = j <;> simp [hj, hij, Array.getElem_modify]
  · simp [hj]

/-- What is left as it is by what touches no object and no movie, and does not count boxes or exits. -/
def footing (t : SceneTables) :
    (Stock × Vector SceneObject maxObjects) × Vector Nat numBoxGroups × List NextScene :=
  ((t.stock, t.objects), t.boxCounts, t.nextScenes)

end SceneTables

/-- What an object shows: its states, and the motions and frames that it is in; and the name that it goes by. -/
structure Showing where
  state : Int16
  statePrev : Int16
  motionNum1 : Int16
  motionNum2 : Int16
  frameNum : Int16
  frameNumPrev : Int16
  name : String

namespace SceneObject

def showing (o : SceneObject) : Showing :=
  ⟨o.state, o.statePrev, o.motionNum1, o.motionNum2, o.frameNum, o.frameNumPrev, o.name⟩

/-- What an object shows, and its name with that of its class. -/
def outline (o : SceneObject) : Showing × (String × String) := (o.showing, o.title)

theorem outline_setPos (o : SceneObject) (a : Axis) (v : Int16) : (o.setPos a v).outline = o.outline := by
  cases a <;> rfl

theorem outline_setCoordinate (o : SceneObject) (c : Coordinate) (v : Int16) :
    (o.setCoordinate c v).outline = o.outline := by
  cases c <;> rfl

theorem showing_placed (o : SceneObject) (frame : Int16) (h : FrameHeader) (state : Int16) :
    (o.placed frame h state).showing =
      ⟨state, state, o.firstMotion.toInt16, o.firstMotion.toInt16, frame,
        if o.state = 0 then frame else o.frameNumPrev, o.name⟩ := by
  unfold placed showing
  by_cases hstate : o.state = 0 <;> simp [hstate]

/-- The ways in which a script changes an object. -/
inductive Edit (t : SceneTables) (o : SceneObject) : SceneObject → Prop
  | keeps {o' : SceneObject} (h : o'.outline = o.outline) : Edit t o o'
  | stepsBack : Edit t o o.stepBack
  | leaves (h : o.state ≠ 0) : Edit t o { o with state := -1 }
  | wakes (h : o.state = 2) : Edit t o { o with state := 1 }
  | halts (h : o.state = 1) : Edit t o { o.stepBack with state := 2 }
  | starts {frame state : Int16} {h : FrameHeader} (hfirst : t.firstFrame o = .ok frame)
    (hframe : t.frameHeader frame = .ok h) : Edit t o (o.placed frame h state)
  | turns {motion frame : Int16} {m : Motion} {h : FrameHeader} (x y : Int16) (hdrawn : o.statePrev ≠ 0)
    (hmotion : t.motion motion.toInt = .ok m) (hframe : t.frameHeader frame = .ok h) :
    Edit t o { o with motionNum2 := motion, frameNum := frame, x, y }

theorem Edit.title {t : SceneTables} {o o' : SceneObject} (h : Edit t o o') : o'.title = o.title := by
  cases h with
  | keeps h => exact (Prod.ext_iff.mp h).2
  | starts => exact o.title_placed _ _ _
  | _ => rfl

end SceneObject

theorem Operator.stock_keepBoxes (keep : Bool) (t : SceneTables) (group : Nat) : (keepBoxes keep t group).stock = t.stock := by
  cases keep <;> rfl

namespace Game

/-- The ground and the core of a game, and the objects on it. -/
def footing (g : Game) : (Ground × Core) × Vector SceneObject maxObjects := (g.hull, g.tables.objects)

theorem footing_tables (g : Game) {t : SceneTables} (h : t.footing = g.tables.footing) :
    ({ g with tables := t } : Game).footing = g.footing := by
  obtain ⟨h, hcounts, hexits⟩ := Prod.ext_iff.mp h |>.imp_right Prod.ext_iff.mp
  obtain ⟨hstock, hobjects⟩ := Prod.ext_iff.mp h
  have hstock : t.stock = g.tables.stock := hstock
  have hobjects : t.objects = g.tables.objects := hobjects
  have hcounts : t.boxCounts = g.tables.boxCounts := hcounts
  have hexits : t.nextScenes = g.tables.nextScenes := hexits
  simp only [footing, hull, ground, core, SceneTables.titles, hstock, hobjects, hcounts, hexits]

/-- There is an object of this name. -/
def HasObject (g : Game) (name : String) : Prop := ∃ i, (g.object i).name = name

/-- One thing that a script does. -/
inductive Act (g : Game) : Game → Prop
  | beside {g' : Game} (h : g'.footing = g.footing) : Act g g'
  | object (i : Nat) {f : SceneObject → SceneObject} (h : (g.object i).Edit g.tables (f (g.object i))) :
    Act g { g with tables := g.tables.modifyObject i f }
  | bag {b : Bag} (h : g.bag.Change g.HasObject b) : Act g { g with bag := b }
  | asks {s : NextScene} (h : s ∈ g.tables.nextScenes) : Act g { g with requested := some s }
  | keepsBoxes (keep : Bool) :
    Act g { g with tables := SceneTables.ownGroups.foldl (Operator.keepBoxes keep) g.tables }

/-- One thing after the other. -/
def Acts : Game → Game → Prop := Relation.ReflTransGen Act

theorem Act.ground {g g' : Game} (h : Act g g') : g'.ground = g.ground := by
  cases h with
  | beside h => exact (Prod.ext_iff.mp (Prod.ext_iff.mp h).1).1
  | object i h => rfl
  | bag h => rfl
  | asks h => rfl
  | keepsBoxes keep =>
    rw [ground_tables, SceneTables.same_foldl SceneTables.stock _ g.tables (Operator.stock_keepBoxes keep)]
    rfl

theorem Acts.ground {g g' : Game} (h : Acts g g') : g'.ground = g.ground := by
  induction h with
  | refl => rfl
  | tail _ h ih => exact h.ground.trans ih

theorem chains_acts : Chains Acts Acts := Chains.ofOrder (fun _ => .refl) .trans

/-- A step that touches neither the ground nor the objects. -/
theorem acts_of_leaves {α : Type} {m : M α} (h : Leaves footing m) : Within Acts Acts m :=
  fun g => (h g).mono (fun _ _ h => .single (.beside h)) fun _ h => .single (.beside h)

theorem acts_setVar (i : Fin numVars) (v : Int16) : Within Acts Acts (setVar i v) := acts_of_leaves fun _ => rfl

/-- Drawing and sounds are acts. -/
theorem draw_acts : DrawActs Acts Acts where
  chains := chains_acts
  aside _ _ _ _ _ := .single (.beside rfl)
  draws g _ h := .single (.beside (Prod.ext (g.hull_draws h) rfl))

/-! ### Objects start -/

theorem acts_startState (o : SceneObject) :
    Within (fun g g' => g.Acts g' ∧ g'.tables = g.tables) Acts (startState o) := by
  have here (g : Game) : g.Acts g ∧ g.tables = g.tables := ⟨.refl, rfl⟩
  intro g
  unfold startState
  split
  · exact here g
  · exact ⟨.single (.beside rfl), rfl⟩
  · exact here g
  · exact here g

theorem acts_startObject (i : Nat) : Within Acts Acts (startObject i) := by
  intro g
  refine Leads.look ?_
  change Leads (if (g.object i).isVisibleAt .next then pure () else startState (g.object i) >>= _) g _ _
  split
  · exact Relation.ReflTransGen.refl
  refine Leads.bind ((acts_startState _ g).mono (fun state g₁ h₁ => ?_) fun _ h => h)
  obtain ⟨h₁, htables⟩ := h₁
  change Leads (if state = 0 then pure () else get >>= _) g₁ _ _
  split
  · exact h₁
  refine Leads.look (Leads.bind ((Leads.lift _ _).mono ?_ fun _ h => h ▸ h₁))
  rintro frame g₁ ⟨rfl, hfirst⟩
  refine Leads.bind ((Leads.lift _ _).mono ?_ fun _ h => h ▸ h₁)
  rintro h g₁ ⟨rfl, hframe⟩
  have hobject : g₁.object i = g.object i := by rw [Game.object, htables, Game.object]
  exact h₁.tail (.object i (.starts (hobject ▸ hfirst) hframe))

theorem acts_startObjects (l : List Nat) : Within Acts Acts (startObjects l) := by
  induction l with
  | nil => exact chains_acts.value _
  | cons i l ih => exact chains_acts.bind (acts_startObject i) fun _ => ih

end Game

namespace Interpreter

open Game (Act)

variable {α β : Type} {g : Game} {P Q : Game → Prop} {m n : Interpreter α}

/-- Whatever a step of a script comes to, it is a row of acts; if it succeeds, it leads to a game of a kind. -/
def ActsTo (P : Game → Prop) (g : Game) (m : Interpreter α) : Prop :=
  ∀ s, Leads (m.run s) g (fun _ g' => g.Acts g' ∧ P g') g.Acts

namespace ActsTo

theorem value (a : α) (h : P g) : ActsTo P g (pure a) := fun _ => ⟨.refl, h⟩

theorem fault (e : GameError) : ActsTo P g (throw e : Interpreter α) := fun _ => Relation.ReflTransGen.refl

theorem bind {f : α → Interpreter β} (hm : ActsTo Q g m) (hf : ∀ a g', Q g' → ActsTo P g' (f a)) :
    ActsTo P g (m >>= f) := by
  intro s
  refine Leads.bind ((hm s).mono (fun p g₁ h => ?_) fun _ h => h)
  exact (hf p.1 g₁ h.2 p.2).mono (fun _ _ h' => ⟨h.1.trans h'.1, h'.2⟩) fun _ h' => h.1.trans h'

/-- Reading an operand changes nothing. -/
theorem read {m : Operand α} {f : α → Interpreter β} (hf : ∀ a s s', m s = .ok (a, s') → ActsTo P g (f a)) :
    ActsTo P g (Interpreter.read m >>= f) := by
  intro s
  change Leads ((Interpreter.read m s : Game.M _) >>= fun p => (f p.1).run p.2) g _ _
  unfold Interpreter.read
  cases hs : m s with
  | ok r => exact hf r.1 s r.2 hs r.2
  | error e => exact Relation.ReflTransGen.refl

theorem game {f : Game → Interpreter β} (hf : ActsTo P g (f g)) : ActsTo P g (Interpreter.game >>= f) := hf

theorem lift {e : Except GameError α} {f : α → Interpreter β} (hf : ∀ a, e = .ok a → ActsTo P g (f a)) :
    ActsTo P g (ofExcept e >>= f) := by
  cases e with
  | ok a => exact hf a rfl
  | error e => exact fault e

theorem act {f : Game → Game} (h : Act g (f g)) (hP : P (f g)) : ActsTo P g (onGame f) := fun _ => ⟨.single h, hP⟩

theorem ite {c : Prop} [Decidable c] (hm : c → ActsTo P g m) (hn : ¬c → ActsTo P g n) :
    ActsTo P g (if c then m else n) := by
  split
  · rename_i h
    exact hm h
  · rename_i h
    exact hn h

end ActsTo

/-- Wherever it is taken, a step of a script is a row of acts. -/
def Acts (m : Interpreter α) : Prop := ∀ g, ActsTo (fun _ => True) g m

namespace Acts

theorem value (a : α) : Acts (pure a) := fun _ => .value a trivial

theorem fault (e : GameError) : Acts (throw e : Interpreter α) := fun _ => .fault e

theorem bind {f : α → Interpreter β} (hm : Acts m) (hf : ∀ a, Acts (f a)) : Acts (m >>= f) :=
  fun g => (hm g).bind fun a g' _ => hf a g'

theorem read (m : Operand α) : Acts (read m) := by
  intro g
  rw [← bind_pure (Interpreter.read m)]
  exact .read fun a _ _ _ => .value a trivial

theorem game : Acts game := fun _ _ => ⟨.refl, trivial⟩

theorem place : Acts (get : Interpreter Script) := fun _ _ => ⟨.refl, trivial⟩

theorem step {m : Game.M α} (hm : Within Game.Acts Game.Acts m) : Acts (liftM m) := fun g _ =>
  Leads.bind ((hm g).mono (fun _ _ h => ⟨h, trivial⟩) fun _ h => h)

theorem lift (e : Except GameError α) : Acts (ofExcept e) := by
  cases e with
  | ok a => exact value a
  | error e => exact fault e

theorem ite {c : Prop} [Decidable c] (hm : Acts m) (hn : Acts n) : Acts (if c then m else n) :=
  fun g => .ite (fun _ => hm g) fun _ => hn g

theorem onGame {f : Game → Game} (h : ∀ g, (f g).footing = g.footing) : Acts (onGame f) :=
  fun g => .act (.beside (h g)) trivial

theorem onTables {f : SceneTables → SceneTables} (h : ∀ t, (f t).footing = t.footing) : Acts (onTables f) :=
  onGame fun g => g.footing_tables (h g.tables)

theorem edit {i : Nat} {f : SceneObject → SceneObject} {g : Game}
    (h : (g.object i).Edit g.tables (f (g.object i))) : ActsTo (fun _ => True) g (onObject i f) :=
  .act (.object i h) trivial

theorem onObject (i : Nat) {f : SceneObject → SceneObject} (h : ∀ o, (f o).outline = o.outline) :
    Acts (onObject i f) := fun _ => edit (.keeps (h _))

end Acts

end Interpreter

namespace Operand

variable {α β : Type} {t : SceneTables} {s : Script}

theorem bind_eq_ok {m : Operand α} {f : α → Operand β} {r : β × Script} :
    (m >>= f) s = .ok r ↔ ∃ a s', m s = .ok (a, s') ∧ f a s' = .ok r :=
  (except_bind_eq_ok (e := m s) (f := fun p => f p.1 p.2)).trans Prod.exists

theorem lift_eq_ok {e : Except GameError α} {a : α} {s' : Script} :
    (liftM e : Operand α) s = .ok (a, s') ↔ e = .ok a ∧ s = s' := by
  cases e with
  | ok b => simp [liftM, monadLift, MonadLift.monadLift, StateT.lift, bind, Except.bind, pure, Except.pure]
  | error e => simp [liftM, monadLift, MonadLift.monadLift, StateT.lift, bind, Except.bind]

/-- An object that is put into a frame on a grid was drawn, and turns to a frame that is there. -/
theorem edit_gridFrame {o o' : SceneObject} {other : Option Nat} {withFrame : Bool} {rows : Rows} {s' : Script}
    (h : gridFrame t o other withFrame rows s = .ok (some o', s')) : o.Edit t o' := by
  unfold gridFrame at h
  obtain ⟨last, _, -, h⟩ := bind_eq_ok.mp h
  by_cases hdrawn : o.statePrev = 0
  · rw [if_pos hdrawn] at h
    cases h
  rw [if_neg hdrawn] at h
  obtain ⟨⟨left, stepX⟩, _, -, h⟩ := bind_eq_ok.mp h
  obtain ⟨⟨low, stepY⟩, _, -, h⟩ := bind_eq_ok.mp h
  obtain ⟨base, _, -, h⟩ := bind_eq_ok.mp h
  obtain ⟨number, _, -, h⟩ := bind_eq_ok.mp h
  obtain ⟨m, _, hmotion, h⟩ := bind_eq_ok.mp h
  obtain ⟨frame, _, -, h⟩ := bind_eq_ok.mp h
  obtain ⟨next, _, hframe, h⟩ := bind_eq_ok.mp h
  obtain ⟨dx, _, -, h⟩ := bind_eq_ok.mp h
  obtain ⟨dy, _, -, h⟩ := bind_eq_ok.mp h
  cases h
  exact .turns _ _ hdrawn (lift_eq_ok.mp hmotion).1 (lift_eq_ok.mp hframe).1

end Operand

namespace Operator

open Interpreter (Acts ActsTo)
open Interpreter.Acts

theorem acts_withSlot (current size : Nat) {step : ObjectRef → Nat → Interpreter Unit} (hstep : ∀ r i, Acts (step r i)) :
    Acts (withSlot current size step) := by
  refine game.bind fun g => (read _).bind fun ref => ?_
  split
  · exact hstep _ _
  · exact read _

/-! ### Objects come and go -/

theorem acts_startAs (i : Nat) (mode : Int16) : Acts (startAs i mode) :=
  game.bind fun _ => Acts.bind (onObject _ fun _ => rfl) fun _ => (step (Game.acts_startObject i)).bind fun _ =>
    onObject _ fun _ => rfl

/-- Wiping an object shows on the frame alone. -/
theorem acts_wipe (i : Nat) (g : Game) : ActsTo (fun g' => g'.tables = g.tables) g (wipe i) :=
  ActsTo.game (ActsTo.lift fun _ _ => ActsTo.act (.beside (Prod.ext (g.hull_draws (Block.shape_copy _ _ _ _ _ _)) rfl)) rfl)

theorem acts_vanish (i : Nat) : Acts (vanish i) := by
  intro g
  refine ActsTo.game (.ite (fun hstate => ?_) fun _ => .value _ trivial)
  have hgone (g : Game) (h : (g.object i).state ≠ 0) :
      ActsTo (fun _ => True) g (Interpreter.onObject i fun o => { o with state := -1 }) := edit (.leaves h)
  refine ActsTo.bind (Q := fun g' => (g'.object i).state ≠ 0) (.act (.object i .stepsBack) ?_)
    fun _ g' h => ActsTo.game (.ite (fun _ => ?_) fun _ => hgone g' h)
  · rw [Game.object, SceneTables.object_modifyObject]
    split <;> exact hstate
  · exact (acts_wipe i g').bind fun _ g₁ hw => hgone g₁ (by rwa [Game.object, hw])

theorem acts_animate (i : Nat) : Acts (animate i) := by
  refine (acts_startAs i 1).bind fun _ g => edit ?_
  by_cases h : (g.object i).state = 2
  · rw [if_pos h]
    exact .wakes h
  · rw [if_neg h]
    exact .keeps rfl

theorem acts_freeze (i : Nat) : Acts (freeze i) := fun g =>
  ActsTo.game (.ite (fun h => edit (.halts h)) fun _ => acts_startAs i 3 g)

theorem acts_state (current : Nat) : Acts (execState current) := by
  refine acts_withSlot _ _ fun _ i => (read _).bind fun n => ?_
  split
  · exact acts_vanish i
  · exact acts_animate i
  · exact acts_freeze i
  · exact value _

/-! ### Objects move and turn -/

theorem acts_move (current : Nat) (a : Axis) : Acts (execMove current a) :=
  game.bind fun _ => ite (read _) ((read _).bind fun _ => (read _).bind fun _ =>
    onObject _ fun o => o.outline_setPos a _)

theorem acts_coordinate (current : Nat) (c : Coordinate) : Acts (execCoordinate current c) :=
  acts_withSlot _ _ fun _ _ => game.bind fun _ => (read _).bind fun _ => onObject _ fun o => o.outline_setCoordinate c _

theorem acts_flip (current : Nat) (initial : Bool) : Acts (execFlip current initial) :=
  acts_withSlot _ _ fun _ _ => (read _).bind fun _ => onObject _ fun o => by cases initial <;> rfl

/-- An object that was drawn turns to a frame that is there. -/
theorem edit_changeFrame {t : SceneTables} {o o' : SceneObject} {other : Option Nat} {motion frame : Int}
    {dx dy : Option Int} (h : t.changeFrame o other motion frame dx dy = .ok o') : o.Edit t o' := by
  unfold SceneTables.changeFrame at h
  split at h
  · cases h
    exact .keeps rfl
  · rename_i hdrawn
    obtain ⟨base, -, h⟩ := except_bind_eq_ok.mp h
    obtain ⟨m, hmotion, h⟩ := except_bind_eq_ok.mp h
    obtain ⟨last, -, h⟩ := except_bind_eq_ok.mp h
    obtain ⟨next, hframe, h⟩ := except_bind_eq_ok.mp h
    cases h
    exact .turns _ _ hdrawn hmotion hframe

theorem acts_frame (current : Nat) (withFrame : Bool) (anchor : Anchor) : Acts (execFrame current withFrame anchor) :=
  acts_withSlot _ _ fun _ _ => (read _).bind fun _ _ =>
    ActsTo.game (ActsTo.lift fun _ h => edit (edit_changeFrame h))

theorem acts_gridFrame (current : Nat) (withFrame : Bool) (rows : Rows) : Acts (execGridFrame current withFrame rows) := by
  refine acts_withSlot _ _ fun _ _ g => ActsTo.game (ActsTo.read fun o s s' h => ?_)
  cases o with
  | some o => exact edit (Operand.edit_gridFrame h)
  | none => exact read _ g

theorem acts_objectVar (current : Nat) : Acts (execObjectVar current) :=
  (read _).bind fun _ => acts_withSlot _ _ fun _ _ => (lift _).bind fun _ => game.bind fun _ =>
    (read _).bind fun _ => onObject _ fun _ => rfl

theorem acts_approach (current : Nat) (a : Axis) : Acts (execApproach current a) :=
  acts_withSlot _ _ fun _ _ => (read _).bind fun _ => (read _).bind fun _ => (read _).bind fun _ =>
    (read _).bind fun _ => game.bind fun _ => (read _).bind fun _ => onObject _ fun o => o.outline_setPos a _

theorem acts_setMode (slot : Option Nat) (mode random : Int16) : Acts (setMode slot mode random) := by
  cases slot with
  | some i =>
    refine onObject _ fun o => ?_
    split <;> rfl
  | none => exact value _

theorem acts_mode (current : Nat) : Acts (execMode current) :=
  game.bind fun _ => (read _).bind fun _ => (read _).bind fun _ =>
    ite ((read _).bind fun _ => acts_setMode _ _ _) ((value _).bind fun _ => acts_setMode _ _ _)

theorem acts_initPlace (current : Nat) : Acts (execInitPlace current) :=
  acts_withSlot _ _ fun _ _ => (read _).bind fun _ => Acts.bind (onObject _ fun _ => rfl) fun _ =>
    (read _).bind fun _ => onObject _ fun _ => rfl

theorem acts_initPoint (current : Nat) : Acts (execInitPoint current) :=
  acts_withSlot _ _ fun _ _ => game.bind fun _ => (read _).bind fun _ => (read _).bind fun _ => onObject _ fun _ => rfl

theorem acts_initMotion (current : Nat) (withFrame : Bool) : Acts (execInitMotion current withFrame) :=
  acts_withSlot _ _ fun _ _ => (read _).bind fun _ => Acts.bind (onObject _ fun _ => rfl) fun _ =>
    ite ((read _).bind fun _ => onObject _ fun _ => rfl) ((value _).bind fun _ => onObject _ fun _ => rfl)

theorem acts_var : Acts execVar :=
  (read _).bind fun _ => game.bind fun _ => (read _).bind fun _ => step (Game.acts_setVar _ _)

theorem acts_varFromScene : Acts execVarFromScene :=
  (read _).bind fun _ => game.bind fun _ => step (Game.acts_setVar _ _)

theorem acts_box (current statement : Nat) (on : Bool) : Acts (execBox current statement on) :=
  (read _).bind fun _ => (read _).bind fun _ => ite (value _) ((lift _).bind fun _ => onTables fun _ => rfl)

theorem acts_shiftAll (a : Axis) (start : Nat) (l : List (Nat × Nat)) : Acts (shiftAll a start l) := by
  induction l with
  | nil => exact value _
  | cons s l ih =>
    refine Acts.bind ?_ fun _ => ih
    refine game.bind fun _ => ?_
    cases a
    all_goals
      exact (read _).bind fun _ => (read _).bind fun _ => (read _).bind fun _ => (read _).bind fun _ =>
        onTables fun _ => rfl

theorem acts_shiftBoxes (a : Axis) : Acts (execShiftBoxes a) :=
  (read _).bind fun _ => game.bind fun _ => (acts_shiftAll _ _ _).bind fun _ => read _

theorem acts_boxAround (current : Nat) : Acts (execBoxAround current) :=
  (read _).bind fun _ => (read _).bind fun _ => acts_withSlot _ _ fun _ _ => game.bind fun _ =>
    ite (read _) ((read _).bind fun _ => (lift _).bind fun _ => onTables fun _ => rfl)

theorem acts_clipBoxes : Acts execClipBoxes :=
  (read _).bind fun _ => (read _).bind fun _ => (read _).bind fun _ => (read _).bind fun _ =>
    onTables fun t => SceneTables.same_foldl SceneTables.footing _ t fun _ _ => rfl

theorem acts_status (current : Nat) : Acts (execStatus current) :=
  game.bind fun _ => (lift _).bind fun _ => (read _).bind fun _ => onTables fun _ => rfl

/-- What changes the bag in one of the ways in which it changes. -/
theorem acts_onBag {g : Game} {f : Bag → Bag} (h : g.bag.Change g.HasObject (f g.bag)) :
    ActsTo (fun _ => True) g (liftM (Game.onBag f) : Interpreter Unit) :=
  ActsTo.act (f := fun g => { g with bag := f g.bag }) (.bag h) trivial

theorem acts_takeObject (i : Nat) : Acts (takeObject i) := by
  intro g
  refine ActsTo.game (.ite (fun hnew => .ite (fun _ => ?full) fun hroom => ?add) fun _ => .value _ trivial)
  case full => exact ActsTo.bind (Q := fun _ => False) (.fault _) fun _ _ h => h.elim
  case add =>
    refine ActsTo.lift fun _ _ => ActsTo.lift fun data _ => acts_onBag ?_
    exact .takes data ⟨i, rfl⟩ (Nat.lt_of_not_le hroom) (Option.isNone_iff_eq_none.mp hnew)

theorem acts_drop : Acts execDrop := by
  refine (read _).bind fun name g => ?_
  cases h : g.bag.find? name with
  | none => exact ActsTo.act (.beside (by simp only [h])) trivial
  | some i => exact acts_onBag (by simpa only [h] using Bag.Change.drops h)

theorem acts_sound (current : Nat) (strict : Bool) : Acts (execSound current strict) := by
  refine (read _).bind fun n => (read _).bind fun priority => game.bind fun g => ite (value _) ?_
  exact (lift _).bind fun _ => (lift _).bind fun _ => (step (Game.draw_acts.startSound _)).bind fun _ =>
    onGame fun _ => rfl

theorem acts_dialogue : Acts execDialogue := by
  have note (f : DialogueRequest → DialogueRequest) : Acts (onRequest f) := onGame fun _ => rfl
  exact (read _).bind fun _ => (note _).bind fun _ => (read _).bind fun _ => (note _).bind fun _ =>
    (read _).bind fun _ => (note _).bind fun _ => (read _).bind fun _ => (note _).bind fun _ =>
      onGame fun _ => rfl

theorem acts_exit (keep : Bool) : Acts (execExit keep) := by
  refine (read _).bind fun n g => ActsTo.game ?_
  split
  · exact value _ g
  · rename_i s hs
    refine ActsTo.bind (Q := fun _ => True) (.act (.asks (List.mem_of_find?_eq_some hs)) trivial) fun _ g' _ => ?_
    exact .act (.keepsBoxes keep) trivial

/-- Whatever an operator does is a row of acts. -/
theorem acts_exec (current statement : Nat) (op : Operator) : Acts (op.exec current statement) := by
  cases op with
  | state => exact acts_state current
  | move a => exact acts_move current a
  | coordinate c => exact acts_coordinate current c
  | flip initial => exact acts_flip current initial
  | frame withFrame anchor => exact acts_frame current withFrame anchor
  | gridFrame withFrame rows => exact acts_gridFrame current withFrame rows
  | objectVar => exact acts_objectVar current
  | approach a => exact acts_approach current a
  | mode => exact acts_mode current
  | initPlace => exact acts_initPlace current
  | initPoint => exact acts_initPoint current
  | initMotion withFrame => exact acts_initMotion current withFrame
  | var => exact acts_var
  | varFromScene => exact acts_varFromScene
  | box on => exact acts_box current statement on
  | shiftBoxes a => exact acts_shiftBoxes a
  | boxAround => exact acts_boxAround current
  | clipBoxes => exact acts_clipBoxes
  | status => exact acts_status current
  | take => exact acts_withSlot _ _ fun _ _ => acts_takeObject _
  | drop => exact acts_drop
  | sound strict => exact acts_sound current strict
  | dialogue => exact acts_dialogue
  | exit keep => exact acts_exit keep

end Operator

namespace Interpreter.Acts

theorem checkCondition (current : Nat) (code : Int16) : Acts (checkCondition current code) := by
  unfold Interpreter.checkCondition
  split
  · exact fault _
  · exact game.bind fun _ => ite (bind (onGame fun _ => rfl) fun _ => read _) (read _)

theorem closed : Closed Acts := ⟨value, fault, bind, read, place, checkCondition, Operator.acts_exec⟩

end Interpreter.Acts

namespace Game

/-- Whatever a script does is a row of acts. -/
theorem acts_runScript (current : Nat) (data : ByteArray) : Within Acts Acts (runScript current data) := by
  refine chains_acts.bind (fun g => ?_) fun _ => chains_acts.value _
  exact (Interpreter.Acts.closed.runStatements current (data.size + 1) 0 g { data }).mono (fun _ _ h => h.1) fun _ h => h

theorem Stays.runScript (current : Nat) (data : ByteArray) : Stays (runScript current data) := fun g =>
  (acts_runScript current data g).mono (fun _ _ h => h.ground) fun _ h => h.ground

end Game

end Adventure
