import Adventure.Proofs.Script.Layout
import Adventure.Script.Run

/-! Every condition and every operator has its own list of operands, and it ends behind
them whichever way it took: the bytes that are skipped when an object is missing or was
not drawn are those that are read otherwise. So two games stay at the same place of a
script. -/

namespace Adventure

open Operand

/-! ### Conditions -/

namespace Condition

def operands : Condition → List Kind
  | always | lifeBar _ => []
  | chance | key _ | click | action | exit => [.word]
  | isSelf => [.object]
  | state _ | flip _ => [.object, .word]
  | meetsRect => [.object, .word, .word, .word, .word]
  | spans _ _ => [.object, .fraction, .fraction, .word]
  | frame _ | motion _ => [.object, .test]
  | objectVar => [.word, .object, .test]
  | overlap _ => [.object, .fraction, .fraction, .object, .fraction, .fraction]
  | height => [.object, .word, .word]
  | var => [.word, .test]
  | box _ => [.word, .object, .fraction, .fraction, .fraction, .fraction]
  | sight => [.word, .object, .fraction, .fraction, .object, .fraction, .fraction]
  | selected => [.text]
  | dialogueEnded => [.test]

open ReadsIf

variable (g : Game) (current : Nat)

/-- A test of an object that is missing does not hold, so nothing is said of its operands. -/
theorem accepts_withObject {test : SceneObject → Operand Bool} {l : List Kind}
    (htest : ∀ o, Accepts (test o) l) : Accepts (withObject g current test) (.object :: l) := by
  refine (reads_object _).bind fun ref => ?_
  split
  · exact htest _
  · exact bad (by simp) l

theorem accepts_withDrawn {test : SceneObject → Operand Bool} {l : List Kind}
    (htest : ∀ o, Accepts (test o) l) : Accepts (withDrawn g current test) (.object :: l) := by
  refine accepts_withObject g current fun o => ?_
  split
  · exact bad (by simp) l
  · exact htest o

theorem accepts_equals (f : SceneObject → Int16) : Accepts (equals g current f) [.object, .word] := by
  refine (reads_object _).bind fun ref => ?_
  split
  · exact reads_word.bind fun _ => value _
  · exact ReadsIf.bind_nil (reads_skip fun _ _ => rfl) fun _ => value _

theorem accepts_click : Accepts (clickHolds g) [.word] := by
  refine reads_int.bind fun n => ?_
  split <;> exact value _

theorem accepts_meetsRect : Accepts (meetsRectHolds g current) [.object, .word, .word, .word, .word] := by
  refine (reads_object _).bind fun ref => reads_int.bind fun _ => reads_int.bind fun _ =>
    reads_int.bind fun _ => reads_int.bind fun _ => ?_
  split
  · exact bad (by simp) _
  dsimp only
  split
  · exact bad (by simp) _
  · exact (lift _).bind fun _ => value _

theorem accepts_spans (a : Axis) (m : Moment) :
    Accepts (spansHolds g current a m) [.object, .fraction, .fraction, .word] := by
  refine (reads_object _).bind fun ref => ?_
  split
  · exact ReadsIf.bind_nil (reads_skip fun _ _ => rfl) fun _ => value _
  dsimp only
  split
  · exact ReadsIf.bind_nil (reads_skip fun _ _ => rfl) fun _ => value _
  · exact (reads_spans _ _ _ _).weaken

theorem accepts_frame (m : Moment) : Accepts (frameHolds g current m) [.object, .test] :=
  accepts_withDrawn g current fun _ => (lift _).bind fun _ => (reads_test _).weaken

theorem accepts_motion (m : Moment) : Accepts (motionHolds g current m) [.object, .test] := by
  refine (reads_object _).bind fun ref => ?_
  split
  · exact bad (by simp) _
  dsimp only
  split
  · exact bad (by simp) _
  refine (lift _).bind fun _ => (lift _).bind fun _ => ?_
  split
  · exact (lift _).bind fun _ => (value _).bind fun _ => (reads_test _).weaken
  · exact (value _).bind fun _ => (reads_test _).weaken

theorem accepts_objectVar : Accepts (objectVarHolds g current) [.word, .object, .test] :=
  reads_int.bind fun _ => accepts_withObject g current fun _ => (lift _).bind fun _ => (reads_test _).weaken

theorem accepts_overlap (a : Axis) :
    Accepts (overlapHolds g current a) [.object, .fraction, .fraction, .object, .fraction, .fraction] :=
  accepts_withDrawn g current fun _ => (reads_point _ _ _).bind fun _ => (reads_point _ _ _).bind fun _ =>
    accepts_withDrawn g current fun _ => (reads_point _ _ _).bind fun _ => (reads_point _ _ _).bind fun _ =>
      value _

theorem accepts_height : Accepts (heightHolds g current) [.object, .word, .word] := by
  refine (reads_object _).bind fun ref => ?_
  split
  · exact ReadsIf.bind_nil (reads_skip fun _ _ => rfl) fun _ => value _
  · exact (lift _).bind fun _ => (lift _).bind fun _ => (lift _).bind fun _ => reads_int.bind fun _ =>
      (reads_wrapped _ _).bind fun _ => reads_word.bind fun _ => value _

theorem accepts_box (hit : Bool) :
    Accepts (boxHolds g current hit) [.word, .object, .fraction, .fraction, .fraction, .fraction] :=
  reads_word.bind fun _ => accepts_withDrawn g current fun _ =>
    (reads_corners _ _).bind fun _ => (lift _).bind fun _ => value _

theorem accepts_sight :
    Accepts (sightHolds g current) [.word, .object, .fraction, .fraction, .object, .fraction, .fraction] :=
  reads_word.bind fun _ => accepts_withDrawn g current fun _ =>
    (reads_point _ _ _).bind fun _ => (reads_point _ _ _).bind fun _ => accepts_withDrawn g current fun _ =>
      (reads_point _ _ _).bind fun _ => (reads_point _ _ _).bind fun _ => (lift _).bind fun _ => value _

theorem accepts_selected : Accepts (selectedHolds g) [.text] := by
  refine reads_string.bind fun name => ?_
  split <;> exact value _

/-- A condition that holds ends behind its operands. -/
theorem accepts_holds (roll : UInt16) (c : Condition) : Accepts (c.holds g current roll) c.operands := by
  cases c with
  | always => exact value _
  | chance => exact reads_int.bind fun _ => value _
  | key down => exact ((reads_index _ _).bind fun _ => value _).bind fun _ => value _
  | click => exact accepts_click g
  | isSelf => exact (reads_object _).bind fun _ => value _
  | state m => exact accepts_equals g current fun o => o.stateAt m
  | meetsRect => exact accepts_meetsRect g current
  | spans a m => exact accepts_spans g current a m
  | flip m => exact accepts_equals g current fun o => o.flipAt m
  | frame m => exact accepts_frame g current m
  | motion m => exact accepts_motion g current m
  | objectVar => exact accepts_objectVar g current
  | overlap a => exact accepts_overlap g current a
  | height => exact accepts_height g current
  | var => exact (reads_index _ _).bind fun _ => (reads_test _).weaken
  | action => exact reads_word.bind fun _ => value _
  | box hit => exact accepts_box g current hit
  | sight => exact accepts_sight g current
  | selected => exact accepts_selected g
  | lifeBar shown => exact value _
  | dialogueEnded => exact (reads_test _).bind fun _ => value _
  | exit => exact reads_word.bind fun _ => value _

end Condition

/-! ### Operators -/

namespace Operator

/-- The kinds of operands behind a code that stands alone or with further words. -/
def wordsIf (more : Bool) (n : Nat) : List Kind := if more then List.replicate n .word else []

def operands : Operator → List Kind
  | state | flip _ => [.object, .word]
  | move _ => [.word, .word, .word, .change]
  | coordinate _ => [.object, .change]
  | frame withFrame anchor => .object :: .word :: (wordsIf withFrame 1 ++ wordsIf (anchor ≠ .keep) 2)
  | gridFrame withFrame rows => .object :: gridKinds withFrame rows
  | objectVar => [.word, .object, .change]
  | approach _ => [.object, .word, .word, .word, .word]
  | mode => [.object, .mode]
  | initPlace => [.object, .word, .word]
  | initPoint => [.object, .fraction, .fraction]
  | initMotion withFrame => .object :: .word :: wordsIf withFrame 1
  | var => [.word, .change]
  | varFromScene | status | exit _ => [.word]
  | box _ | sound _ => [.word, .word]
  | shiftBoxes _ => [.change]
  | boxAround => [.word, .word, .object, .fraction, .fraction, .fraction, .fraction]
  | clipBoxes => [.word, .word, .word, .word]
  | take => [.object]
  | drop => [.text]
  | dialogue => [.text, .text, .text, .text]

open Interpreter
open Interpreter.Reads

/-- With its object an operator reads operands of the size that it skips without it. -/
theorem reads_withSlot (current : Nat) {size : Nat} {step : ObjectRef → Nat → Interpreter Unit} {l : List Kind}
    (hsize : ∀ data i, span data i l = i + size) (hstep : ∀ ref i, Reads (step ref i) l) :
    Reads (withSlot current size step) (.object :: l) := by
  refine reads_game.bind fun g => (reads_read (reads_object _)).bind fun ref => ?_
  split
  · exact hstep ref _
  · exact reads_read (reads_skip hsize)

theorem reads_startAs (i : Nat) (mode : Int16) : Reads (startAs i mode) [] :=
  reads_game.bind fun _ => (Reads.object _ _).bind fun _ => (lift _).bind fun _ => Reads.object _ _

theorem reads_vanish (i : Nat) : Reads (vanish i) [] := by
  refine reads_game.bind fun g => ?_
  split
  · refine (Reads.object _ _).bind fun _ => reads_game.bind fun g => ?_
    split
    · exact (reads_game.bind fun _ => (ofExcept _).bind fun _ => lift _).bind fun _ => Reads.object _ _
    · exact Reads.object _ _
  · exact value _

theorem reads_animate (i : Nat) : Reads (animate i) [] := (reads_startAs i 1).bind fun _ => Reads.object _ _

theorem reads_freeze (i : Nat) : Reads (freeze i) [] := by
  refine reads_game.bind fun g => ?_
  split
  · exact Reads.object _ _
  · exact reads_startAs i 3

variable (current : Nat)

theorem reads_state : Reads (execState current) [.object, .word] := by
  refine reads_withSlot current (fun _ _ => rfl) fun _ i => (reads_read reads_int).bind fun n => ?_
  split
  · exact reads_vanish i
  · exact reads_animate i
  · exact reads_freeze i
  · exact value _

theorem reads_move (a : Axis) : Reads (execMove current a) [.word, .word, .word, .change] := by
  refine reads_game.bind fun g => ?_
  dsimp only
  split
  · exact reads_read (reads_skip fun _ _ => rfl)
  · exact bind (k := [.word, .word, .word]) (reads_read (reads_skip fun _ _ => rfl)) fun _ =>
      (reads_read (reads_change _)).bind fun _ => Reads.object _ _

theorem reads_coordinate (c : Coordinate) : Reads (execCoordinate current c) [.object, .change] :=
  reads_withSlot current (fun _ _ => rfl) fun _ _ =>
    reads_game.bind fun _ => (reads_read (reads_change _)).bind fun _ => Reads.object _ _

theorem reads_flip (initial : Bool) : Reads (execFlip current initial) [.object, .word] :=
  reads_withSlot current (fun _ _ => rfl) fun _ _ => (reads_read reads_word).bind fun _ => Reads.object _ _

theorem reads_frameOperands (withFrame : Bool) (anchor : Anchor) :
    Operand.Reads (frameOperands withFrame anchor)
      (.word :: (wordsIf withFrame 1 ++ wordsIf (anchor ≠ .keep) 2)) := by
  refine reads_int.bind fun motion => ReadsIf.bind (by cases withFrame <;> exact reads_frameNumber _) fun n => ?_
  cases anchor with
  | keep => exact ReadsIf.value _
  | column =>
    exact reads_int.bind fun _ => (reads_word.bind fun _ => ReadsIf.value _).bind fun _ => ReadsIf.value _
  | both => exact reads_int.bind fun _ => reads_int.bind fun _ => ReadsIf.value _

theorem reads_frame (withFrame : Bool) (anchor : Anchor) :
    Reads (execFrame current withFrame anchor) (operands (frame withFrame anchor)) := by
  refine reads_withSlot current (fun _ _ => by cases withFrame <;> cases anchor <;> rfl) fun ref i => ?_
  refine (reads_read (reads_frameOperands withFrame anchor)).bind_nil fun ⟨motion, number, dx, dy⟩ => ?_
  exact reads_game.bind fun _ => (ofExcept _).bind fun _ => Reads.object _ _

theorem reads_gridFrame (withFrame : Bool) (rows : Rows) :
    Reads (execGridFrame current withFrame rows) (.object :: gridKinds withFrame rows) := by
  have hsize : ∀ data i, span data i (gridKinds withFrame rows) = i + gridOperandsSize withFrame rows := by
    intro data i
    cases withFrame <;> cases rows <;> rfl
  refine reads_withSlot current hsize fun ref i => bind (l := gridKinds withFrame rows) reads_game fun g => ?_
  intro s k a t h hs
  obtain ⟨r, u, k', hr, hs⟩ := bind_ok hs
  cases r with
  | some o =>
    -- the operands were read, and only the object is put in place
    rw [← Operand.reads_gridFrame _ _ _ _ _ _ _ _ (read_ok hr).1 rfl]
    exact Reads.object _ _ _ _ _ _ _ hs
  | none =>
    cases gridFrame_none _ _ (read_ok hr).1
    exact reads_read (reads_skip hsize) _ _ _ _ _ hs

theorem reads_objectVar : Reads (execObjectVar current) [.word, .object, .change] :=
  (reads_read reads_int).bind fun _ => reads_withSlot current (fun _ _ => rfl) fun _ _ =>
    (ofExcept _).bind fun _ => reads_game.bind fun _ => (reads_read (reads_change _)).bind fun _ =>
      Reads.object _ _

theorem reads_approach (a : Axis) : Reads (execApproach current a) [.object, .word, .word, .word, .word] :=
  reads_withSlot current (fun _ _ => rfl) fun _ _ =>
    (reads_read reads_int).bind fun _ => (reads_read reads_word).bind fun _ =>
      (reads_read reads_int).bind fun _ => (reads_read reads_word).bind fun _ => reads_game.bind fun _ =>
        (reads_read (reads_pastGrid _ _ _ _ _ _)).bind fun _ => Reads.object _ _

theorem reads_setMode (slot : Option Nat) (mode random : Int16) : Reads (setMode slot mode random) [] := by
  cases slot with
  | some i => exact Reads.object _ _
  | none => exact value _

/-- The second word is there for mode 2, also when no object takes it. -/
theorem reads_mode : Reads (execMode current) [.object, .mode] := by
  refine reads_game.bind fun g => (reads_read (reads_object _)).bind fun ref => ?_
  intro s k a t h hs
  obtain ⟨mode, u, k₁, hmode, hs⟩ := bind_ok hs
  obtain ⟨hm, rfl⟩ := word_ok (read_ok hmode).1
  by_cases h2 : mode = 2
  · rw [if_pos h2] at hs
    rw [((reads_read reads_word).bind_nil (reads_setMode _ mode)) _ _ _ _ _ hs]
    simp only [past, span, Kind.size, ← hm, h2, if_true]
  · rw [if_neg h2] at hs
    rw [((value _).bind_nil (reads_setMode _ mode)) _ _ _ _ _ hs]
    simp only [past, span, Kind.size, ← hm, h2, if_false]

theorem reads_initPlace : Reads (execInitPlace current) [.object, .word, .word] :=
  reads_withSlot current (fun _ _ => rfl) fun _ _ =>
    (reads_read reads_word).bind fun _ => (Reads.object _ _).bind fun _ =>
      (reads_read reads_word).bind fun _ => Reads.object _ _

theorem reads_initPoint : Reads (execInitPoint current) [.object, .fraction, .fraction] :=
  reads_withSlot current (fun _ _ => rfl) fun _ _ => reads_game.bind fun _ =>
    (reads_read (reads_point _ _ _)).bind fun _ => (reads_read (reads_point _ _ _)).bind fun _ =>
      Reads.object _ _

theorem reads_initMotion (withFrame : Bool) :
    Reads (execInitMotion current withFrame) (operands (initMotion withFrame)) := by
  cases withFrame with
  | true =>
    exact reads_withSlot current (fun _ _ => rfl) fun _ _ =>
      (reads_read reads_word).bind fun _ => (Reads.object _ _).bind fun _ =>
        (reads_read reads_word).bind fun _ => Reads.object _ _
  | false =>
    exact reads_withSlot current (fun _ _ => rfl) fun _ _ =>
      (reads_read reads_word).bind fun _ => (Reads.object _ _).bind fun _ =>
        (value _).bind fun _ => Reads.object _ _

theorem reads_var : Reads execVar [.word, .change] :=
  (reads_read (reads_index _ _)).bind fun _ => reads_game.bind fun _ =>
    (reads_read (reads_change _)).bind fun _ => lift _

theorem reads_varFromScene : Reads execVarFromScene [.word] :=
  (reads_read (reads_index _ _)).bind fun _ => reads_game.bind fun _ => lift _

theorem reads_box (statement : Nat) (on : Bool) : Reads (execBox current statement on) [.word, .word] := by
  refine (reads_read reads_int).bind fun _ => (reads_read reads_int).bind fun _ => ?_
  split
  · exact value _
  · exact (ofExcept _).bind fun ⟨g, i⟩ => lift _

/-- Shifting boxes moves in the script, but stays in it. -/
theorem shiftAll_data (a : Axis) (start : Nat) (slots : List (Nat × Nat)) {s t : Script} {g h : Game} {u : Unit}
    (hs : shiftAll a start slots s g = .ok (u, t) h) : t.data = s.data := by
  induction slots generalizing s g with
  | nil => cases hs; rfl
  | cons slot slots ih =>
    obtain ⟨⟨⟩, s₁, g₁, hbox, hs⟩ := bind_ok hs
    rw [ih hs]
    obtain ⟨g₂, s₂, g₃, hg, hbox⟩ := bind_ok hbox
    cases hg
    obtain ⟨⟨⟩, s₃, g₄, hjump, hbox⟩ := bind_ok hbox
    cases (read_ok hjump).1
    obtain ⟨low, s₄, g₅, hlow, hbox⟩ := bind_ok hbox
    cases reads_change _ _ _ _ (read_ok hlow).1 trivial
    obtain ⟨⟨⟩, s₅, g₆, hjump, hbox⟩ := bind_ok hbox
    cases (read_ok hjump).1
    obtain ⟨high, s₆, g₇, hhigh, hbox⟩ := bind_ok hbox
    cases reads_change _ _ _ _ (read_ok hhigh).1 trivial
    cases Reads.tables _ _ _ _ _ _ hbox
    rfl

/-- The change is read anew for each box, and skipped behind the last one. -/
theorem reads_shiftBoxes (a : Axis) : Reads (execShiftBoxes a) [.change] := by
  intro s g u t h hs
  obtain ⟨start, s₁, g₁, hstart, hs⟩ := bind_ok hs
  cases (read_ok hstart).1
  obtain ⟨g₂, s₂, g₃, hg, hs⟩ := bind_ok hs
  cases hg
  obtain ⟨⟨⟩, s₃, g₄, hshift, hs⟩ := bind_ok hs
  cases (read_ok hs).1
  exact congrArg (fun data => Script.mk data (s.offset + 4)) (shiftAll_data a _ _ hshift)

theorem reads_boxAround :
    Reads (execBoxAround current) [.word, .word, .object, .fraction, .fraction, .fraction, .fraction] := by
  refine (reads_read reads_int).bind fun _ => (reads_read reads_int).bind fun _ =>
    reads_withSlot current (fun _ _ => rfl) fun _ i => reads_game.bind fun g => ?_
  dsimp only
  split
  · exact reads_read (reads_skip fun _ _ => rfl)
  · exact (reads_read (reads_corners _ _)).bind fun ⟨x₁, x₂, y₁, y₂⟩ => (ofExcept _).bind fun ⟨g, i⟩ => lift _

theorem reads_clipBoxes : Reads execClipBoxes [.word, .word, .word, .word] :=
  (reads_read reads_word).bind fun _ => (reads_read reads_word).bind fun _ =>
    (reads_read reads_word).bind fun _ => (reads_read reads_word).bind fun _ => lift _

theorem reads_status : Reads (execStatus current) [.word] :=
  reads_game.bind fun _ => (ofExcept _).bind fun _ => (reads_read (reads_index _ _)).bind fun _ => lift _

theorem reads_takeObject (i : Nat) : Reads (takeObject i) [] := by
  refine reads_game.bind fun g => ?_
  dsimp only
  split
  · split
    · exact (fault _ []).bind fun _ => (ofExcept _).bind fun _ => (ofExcept _).bind fun _ => lift _
    · exact (ofExcept _).bind fun _ => (ofExcept _).bind fun _ => lift _
  · exact value _

theorem reads_take : Reads (execTake current) [.object] :=
  reads_withSlot current (fun _ _ => rfl) fun _ i => reads_takeObject i

theorem reads_drop : Reads execDrop [.text] := (reads_read reads_string).bind fun _ => lift _

theorem reads_sound (strict : Bool) : Reads (execSound current strict) [.word, .word] := by
  refine (reads_read reads_int).bind fun n => (reads_read reads_word).bind fun priority => ?_
  refine reads_game.bind fun g => ?_
  exact Reads.ite (value _) ((ofExcept _).bind fun _ => (ofExcept _).bind fun _ => (lift _).bind fun _ => lift _)

theorem reads_dialogue : Reads execDialogue [.text, .text, .text, .text] :=
  (reads_read reads_string).bind fun _ => (lift _).bind fun _ =>
    (reads_read reads_string).bind fun _ => (lift _).bind fun _ =>
      (reads_read reads_string).bind fun _ => (lift _).bind fun _ =>
        (reads_read reads_string).bind fun _ => (lift _).bind fun _ => lift _

theorem reads_exit (keep : Bool) : Reads (execExit keep) [.word] := by
  refine (reads_read reads_word).bind fun n => reads_game.bind fun g => ?_
  split
  · exact value _
  · exact (lift _).bind fun _ => lift _

/-- An operator ends behind its operands. -/
theorem reads_exec (statement : Nat) (op : Operator) : Reads (op.exec current statement) op.operands := by
  cases op with
  | state => exact reads_state current
  | move a => exact reads_move current a
  | coordinate c => exact reads_coordinate current c
  | flip initial => exact reads_flip current initial
  | frame withFrame anchor => exact reads_frame current withFrame anchor
  | gridFrame withFrame rows => exact reads_gridFrame current withFrame rows
  | objectVar => exact reads_objectVar current
  | approach a => exact reads_approach current a
  | mode => exact reads_mode current
  | initPlace => exact reads_initPlace current
  | initPoint => exact reads_initPoint current
  | initMotion withFrame => exact reads_initMotion current withFrame
  | var => exact reads_var
  | varFromScene => exact reads_varFromScene
  | box on => exact reads_box current statement on
  | shiftBoxes a => exact reads_shiftBoxes a
  | boxAround => exact reads_boxAround current
  | clipBoxes => exact reads_clipBoxes
  | status => exact reads_status current
  | take => exact reads_take current
  | drop => exact reads_drop
  | sound strict => exact reads_sound current strict
  | dialogue => exact reads_dialogue
  | exit keep => exact reads_exit keep

end Operator

/-! ### Codes -/

namespace Interpreter

/-- A condition that is found to hold has read the operands of its code. -/
theorem checkCondition_past {current : Nat} {code : Int16} {s t : Script} {g h : Game}
    (hs : checkCondition current code s g = .ok (true, t) h) :
    ∃ c, Condition.ofCode? code = some c ∧ t = past c.operands s := by
  unfold checkCondition at hs
  cases hc : Condition.ofCode? code with
  | none => rw [hc] at hs; cases hs
  | some c =>
    rw [hc] at hs
    refine ⟨c, rfl, ?_⟩
    obtain ⟨g₁, s₁, g₂, hg, hs⟩ := bind_ok hs
    cases hg
    have hholds : ∃ k, read (c.holds g current g.random.next.1) s k = .ok (true, t) h := by
      dsimp only at hs
      split at hs
      · obtain ⟨⟨⟩, s₂, g₃, hset, hs⟩ := bind_ok hs
        cases Reads.lift _ _ _ _ _ _ hset
        exact ⟨_, hs⟩
      · exact ⟨_, hs⟩
    obtain ⟨k, hk⟩ := hholds
    exact Condition.accepts_holds g current _ c _ _ _ (read_ok hk).1 rfl

theorem execCode_past {current statement : Nat} {code : Int16} {s t : Script} {g h : Game}
    (hs : execCode current statement code s g = .ok ((), t) h) :
    ∃ op, Operator.ofCode? code = some op ∧ t = past op.operands s := by
  unfold execCode at hs
  cases hop : Operator.ofCode? code with
  | none => rw [hop] at hs; cases hs
  | some op =>
    rw [hop] at hs
    exact ⟨op, rfl, Operator.reads_exec current statement op _ _ _ _ _ hs⟩

/-- Operands stay aligned. Whatever two games are, whichever objects run the script in
them and in which statement: an operator ends at the same place in both of them, and so
does a condition that holds in both. -/
theorem operands_aligned (s : Script) (code : Int16) (current₁ current₂ statement₁ statement₂ : Nat)
    (g₁ g₂ h₁ h₂ : Game) (t₁ t₂ : Script) :
    (execCode current₁ statement₁ code s g₁ = .ok ((), t₁) h₁ →
      execCode current₂ statement₂ code s g₂ = .ok ((), t₂) h₂ → t₁.offset = t₂.offset) ∧
    (checkCondition current₁ code s g₁ = .ok (true, t₁) h₁ →
      checkCondition current₂ code s g₂ = .ok (true, t₂) h₂ → t₁.offset = t₂.offset) := by
  constructor
  · intro hs₁ hs₂
    obtain ⟨op₁, hop₁, rfl⟩ := execCode_past hs₁
    obtain ⟨op₂, hop₂, rfl⟩ := execCode_past hs₂
    cases hop₁.symm.trans hop₂
    rfl
  · intro hs₁ hs₂
    obtain ⟨c₁, hc₁, rfl⟩ := checkCondition_past hs₁
    obtain ⟨c₂, hc₂, rfl⟩ := checkCondition_past hs₂
    cases hc₁.symm.trans hc₂
    rfl

/-- A game with one frame, whose objects are all in the given state. -/
def sceneOf (state : Int16) : Game :=
  { (default : Game) with
    tables := {
      objects := Vector.replicate maxObjects { state, statePrev := state }
      objectsCount := 1
      animations := #[{}]
      motions := #[{ count := 1 }]
      frames := #[⟨ByteArray.empty, ⟨0, 4, 4, 0, 0⟩, .blocks⟩] } }

/-- The running object, two points and two words. -/
def gridScript : Script where
  data := Bytes.ofList [0, 0, 0, 0, 1, 0, 0, 0, 1, 0, 1, 0, 0, 0, 1, 0, 1, 0]

/-- An object that was not drawn skips what one that was drawn reads. -/
theorem operands_aligned_undrawn :
    (∃ h, execCode 0 0 3440 gridScript (sceneOf 0) = .ok ((), ⟨gridScript.data, 18⟩) (sceneOf 0) ∧
      execCode 0 0 3440 gridScript (sceneOf 1) = .ok ((), ⟨gridScript.data, 18⟩) h) ∧
    checkCondition 0 3100 gridScript (sceneOf 0) = .ok (true, ⟨gridScript.data, 16⟩) (sceneOf 0) ∧
    checkCondition 0 3100 gridScript (sceneOf 1) = .ok (true, ⟨gridScript.data, 16⟩) (sceneOf 1) ∧
    (⟨gridScript.data, 18⟩ : Script).offset = (⟨gridScript.data, 18⟩ : Script).offset ∧
    (⟨gridScript.data, 16⟩ : Script).offset = (⟨gridScript.data, 16⟩ : Script).offset := by
  have hskip : execCode 0 0 3440 gridScript (sceneOf 0) = .ok ((), ⟨gridScript.data, 18⟩) (sceneOf 0) := rfl
  have hread : ∃ h, execCode 0 0 3440 gridScript (sceneOf 1) = .ok ((), ⟨gridScript.data, 18⟩) h := ⟨_, rfl⟩
  have hpass : checkCondition 0 3100 gridScript (sceneOf 0) = .ok (true, ⟨gridScript.data, 16⟩) (sceneOf 0) := rfl
  have htest : checkCondition 0 3100 gridScript (sceneOf 1) = .ok (true, ⟨gridScript.data, 16⟩) (sceneOf 1) := rfl
  obtain ⟨h, hread⟩ := hread
  exact ⟨⟨h, hskip, hread⟩, hpass, htest, (operands_aligned _ _ 0 0 0 0 _ _ _ _ _ _).1 hskip hread,
    (operands_aligned _ _ 0 0 0 0 _ _ _ _ _ _).2 hpass htest⟩

end Interpreter

end Adventure
