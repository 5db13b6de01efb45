import Adventure.Dialogue

/-! What is offered in a dialogue, whatever is done in it and in whatever order: the entries of the name
that it was last set up with, by the player's way into it or by a choice that leads on. -/

namespace Adventure

/-- The number of an ending. -/
def DialogueEntry.number (c : DialogueEntry) : Int := Text.leadingDecimal c.next.toList

namespace Dialogue

/-- What can be done with a dialogue. -/
inductive Operation where
  | setup (name : String)
  | moveUp
  | moveDown
  | confirm
  | speechFinished
  deriving DecidableEq, Repr

def Operation.run (d : Dialogue) : Operation → DialogueEvent × Dialogue
  | .setup name => d.setup name
  | .moveUp => (.nothing, d.moveUp)
  | .moveDown => (.nothing, d.moveDown)
  | .confirm => d.confirm
  | .speechFinished => d.speechFinished

/-- The name that the selected choice leads to, if it leads to one. -/
def goesTo (d : Dialogue) : Option String :=
  if d.selected then
    match d.current? with
    | some c => if c.goes then some c.next else none
    | none => none
  else none

/-- The name a dialogue is set up with after an operation. To follow a choice to a name sets it up. -/
def Operation.topic (d : Dialogue) (topic : Option String) : Operation → Option String
  | .setup name => some name
  | .speechFinished => d.goesTo.or topic
  | _ => topic

/-- A dialogue under way: the name that it was last set up with, what was asked for last, and its state. -/
structure Underway where
  topic : Option String := none
  event : DialogueEvent := .nothing
  state : Dialogue

def Underway.step (u : Underway) (o : Operation) : Underway :=
  ⟨o.topic u.state u.topic, (o.run u.state).1, (o.run u.state).2⟩

def Underway.run (entries : List DialogueEntry) (l : List Operation) : Underway :=
  l.foldl step { state := ofEntries entries }

/-- The first ten entries of a name. -/
def entriesOf (entries : List DialogueEntry) : Option String → List DialogueEntry
  | none => []
  | some name => (entries.filter fun e => e.id = name).take 10

/-- What is offered is what there is of a topic, and one of it is marked. -/
structure Offers (all : List DialogueEntry) (topic : Option String) (d : Dialogue) : Prop where
  entries : d.entries = all
  choices : d.choices = entriesOf all topic
  index : d.index < max 1 d.choices.length

/-- What is spoken is the choice that is marked. -/
def Speaks (r : DialogueEvent × Dialogue) : Prop :=
  ∀ file, r.1 = .speak file → ∃ c, r.2.current? = some c ∧ c.speech = file

variable {d : Dialogue} {all : List DialogueEntry} {topic : Option String}

theorem speaks_speech (d : Dialogue) : Speaks (d.speech, d) := by
  intro file h
  unfold speech at h
  cases hc : d.current? with
  | none =>
    rw [hc] at h
    cases h
  | some c =>
    rw [hc] at h
    cases h
    exact ⟨c, rfl, rfl⟩

/-- Nothing is spoken without an event that says so. -/
theorem speaks_of_ne {event : DialogueEvent} (h : ∀ file, event ≠ .speak file) : Speaks (event, d) :=
  fun file he => absurd he (h file)

/-! ### Setting up -/

theorem setup_offers (d : Dialogue) (name : String) : Offers d.entries (some name) (d.setup name).2 := by
  unfold setup
  dsimp only
  split
  · exact ⟨rfl, rfl, Nat.lt_of_lt_of_le Nat.zero_lt_one (Nat.le_max_left _ _)⟩
  · exact ⟨rfl, rfl, Nat.lt_of_lt_of_le Nat.zero_lt_one (Nat.le_max_left _ _)⟩

theorem setup_speaks (d : Dialogue) (name : String) : Speaks (d.setup name) := by
  unfold setup
  dsimp only
  split
  · exact speaks_speech _
  · exact speaks_of_ne nofun

/-! ### Moving -/

theorem moveUp_of_selected (h : d.selected = true) : d.moveUp = d := by
  simp [moveUp, h]

theorem moveDown_of_selected (h : d.selected = true) : d.moveDown = d := by
  simp [moveDown, h]

namespace Offers

variable (h : Offers all topic d)
include h

theorem select (b : Bool) : Offers all topic { d with selected := b } := ⟨h.entries, h.choices, h.index⟩

theorem moveUp : Offers all topic d.moveUp := by
  unfold Dialogue.moveUp
  split
  · exact ⟨h.entries, h.choices, Nat.lt_of_le_of_lt (Nat.sub_le _ 1) h.index⟩
  · exact h

theorem moveDown : Offers all topic d.moveDown := by
  unfold Dialogue.moveDown
  split
  · rename_i hroom
    exact ⟨h.entries, h.choices, Nat.lt_of_lt_of_le hroom.2 (Nat.le_max_right _ _)⟩
  · exact h

theorem confirm : Offers all topic d.confirm.2 := by
  unfold Dialogue.confirm
  split
  · exact h.select true
  · exact h

end Offers

theorem confirm_speaks (d : Dialogue) : Speaks d.confirm := by
  unfold confirm
  split
  · exact speaks_speech _
  · exact speaks_of_ne nofun

/-! ### Following the choice that was spoken -/

/-- What follows a choice that was spoken. -/
theorem speechFinished_of_selected (h : d.selected = true) : d.speechFinished = match d.current? with
    | none => (.leave, { d with selected := false })
    | some c =>
      if c.goes then
        if ({ d with selected := false }.setup c.next).2.choices.isEmpty then
          (.leave, ({ d with selected := false }.setup c.next).2)
        else { d with selected := false }.setup c.next
      else if Text.leadingDecimal c.next.toList = kissEnding then (.kiss, { d with selected := false, speaker := .kiss })
      else (.ended (Text.leadingDecimal c.next.toList), { d with selected := false }) := by
  unfold speechFinished
  rw [h]
  rfl

theorem speechFinished_of_not_selected (h : d.selected = false) : d.speechFinished = (.nothing, d) := by
  simp [speechFinished, h]

/-- Either the dialogue is set up with the name that the choice leads to, or nothing is spoken and what is
offered stays. -/
theorem speechFinished_cases (d : Dialogue) :
    (∃ name, d.goesTo = some name ∧ d.speechFinished.2 = ({ d with selected := false }.setup name).2 ∧
      (d.speechFinished.1 = .leave ∨ d.speechFinished.1 = ({ d with selected := false }.setup name).1)) ∨
    (d.goesTo = none ∧ (∀ file, d.speechFinished.1 ≠ .speak file) ∧
      ∃ speaker, d.speechFinished.2 = { d with selected := false, speaker }) := by
  cases hselected : d.selected with
  | false =>
    refine .inr ⟨by simp [goesTo, hselected], ?_⟩
    rw [speechFinished_of_not_selected hselected]
    refine ⟨nofun, d.speaker, ?_⟩
    rw [← hselected]
  | true =>
    unfold goesTo
    rw [if_pos hselected, speechFinished_of_selected hselected]
    cases d.current? with
    | none => exact .inr ⟨rfl, nofun, d.speaker, rfl⟩
    | some c =>
      dsimp only
      split
      · refine .inl ⟨c.next, rfl, ?_⟩
        split
        · exact ⟨rfl, .inl rfl⟩
        · exact ⟨rfl, .inr rfl⟩
      · refine .inr ⟨rfl, ?_⟩
        split
        · exact ⟨nofun, .kiss, rfl⟩
        · exact ⟨nofun, d.speaker, rfl⟩

theorem Offers.speechFinished (h : Offers all topic d) : Offers all (d.goesTo.or topic) d.speechFinished.2 := by
  obtain ⟨name, hgoes, hstate, -⟩ | ⟨hgoes, -, speaker, hstate⟩ := speechFinished_cases d
  · rw [hgoes, hstate, ← h.entries]
    exact setup_offers { d with selected := false } name
  · rw [hgoes, hstate]
    exact ⟨h.entries, h.choices, h.index⟩

theorem speechFinished_speaks (d : Dialogue) : Speaks d.speechFinished := by
  obtain ⟨name, -, hstate, hevent⟩ | ⟨-, hsilent, -⟩ := speechFinished_cases d
  · intro file h
    have hsetup := hevent.resolve_left fun hleave => by rw [hleave] at h; cases h
    rw [hstate]
    exact setup_speaks _ name file (hsetup ▸ h)
  · exact fun file h => absurd h (hsilent file)

/-! ### How a choice ends a dialogue -/

theorem speakerOf_ne_kiss (name : String) : speakerOf name ≠ .kiss := by
  unfold speakerOf
  split <;> exact nofun

theorem speaker_setup (d : Dialogue) (name : String) : (d.setup name).2.speaker = speakerOf name := by
  unfold setup
  dsimp only
  split <;> rfl

theorem setup_speaks_or_waits (d : Dialogue) (name : String) :
    (d.setup name).1 = .nothing ∨ ∃ file, (d.setup name).1 = .speak file := by
  unfold setup speech
  dsimp only
  split
  · dsimp only
    split
    · exact .inr ⟨_, rfl⟩
    · exact .inl rfl
  · exact .inl rfl

/-- How a choice that was spoken ends the dialogue: with its number, or with a kiss for the one number that stands
for it. When the dialogue goes on, it is not the kiss that is shown. -/
def Ends (d : Dialogue) (r : DialogueEvent × Dialogue) : Prop :=
  match r.1 with
  | .leave => True
  | .ended n => ∃ c, d.current? = some c ∧ c.goes = false ∧ c.number ≠ kissEnding ∧ n = c.number
  | .kiss => ∃ c, d.current? = some c ∧ c.goes = false ∧ c.number = kissEnding
  | _ => r.2.speaker ≠ .kiss

theorem speechFinished_ends (h : d.selected = true) : Ends d d.speechFinished := by
  rw [speechFinished_of_selected h]
  cases hc : d.current? with
  | none => trivial
  | some c =>
    dsimp only
    split
    · split
      · trivial
      · have hspeaker : ({ d with selected := false }.setup c.next).2.speaker ≠ .kiss := by
          rw [speaker_setup]
          exact speakerOf_ne_kiss _
        obtain hevent | ⟨file, hevent⟩ := setup_speaks_or_waits { d with selected := false } c.next
        · rw [Ends, hevent]
          exact hspeaker
        · rw [Ends, hevent]
          exact hspeaker
    · rename_i hgoes
      have hgoes : c.goes = false := Bool.eq_false_iff.mpr hgoes
      split
      · rename_i hkiss
        exact ⟨c, hc, hgoes, hkiss⟩
      · rename_i hkiss
        exact ⟨c, hc, hgoes, hkiss, rfl⟩

/-! ### Any operations -/

namespace Operation

theorem offers (o : Operation) (h : Offers all topic d) : Offers all (o.topic d topic) (o.run d).2 := by
  cases o with
  | setup name => exact h.entries ▸ setup_offers d name
  | moveUp => exact h.moveUp
  | moveDown => exact h.moveDown
  | confirm => exact h.confirm
  | speechFinished => exact h.speechFinished

theorem speaks (o : Operation) (d : Dialogue) : Speaks (o.run d) := by
  cases o with
  | setup name => exact setup_speaks d name
  | moveUp => exact speaks_of_ne nofun
  | moveDown => exact speaks_of_ne nofun
  | confirm => exact confirm_speaks d
  | speechFinished => exact speechFinished_speaks d

end Operation

namespace Underway

theorem offers_foldl (l : List Operation) {u : Underway} (h : Offers all u.topic u.state ∧ Speaks (u.event, u.state)) :
    Offers all (l.foldl step u).topic (l.foldl step u).state ∧
      Speaks ((l.foldl step u).event, (l.foldl step u).state) := by
  induction l generalizing u with
  | nil => exact h
  | cons o l ih => exact ih ⟨o.offers h.1, o.speaks u.state⟩

/-- Whatever is done with a dialogue and in whatever order, what it offers are the first ten entries, in
their order, of the name that it was last set up with, or led to; the mark is on one of them, when there
are any; it does not move while a choice is spoken; and what is to be spoken is the marked one. -/
theorem run_offers (all : List DialogueEntry) (l : List Operation) :
    (run all l).state.choices = entriesOf all (run all l).topic ∧
      (run all l).state.index < max 1 (run all l).state.choices.length ∧
      ((run all l).state.selected = true →
        (run all l).state.moveUp = (run all l).state ∧ (run all l).state.moveDown = (run all l).state) ∧
      ∀ file, (run all l).event = .speak file →
        ∃ c, (run all l).state.choices[(run all l).state.index]? = some c ∧ c.speech = file := by
  have hstart : Offers all none (ofEntries all) := ⟨rfl, rfl, Nat.zero_lt_one⟩
  obtain ⟨hoffers, hspeaks⟩ := offers_foldl (u := { state := ofEntries all }) l ⟨hstart, speaks_of_ne nofun⟩
  exact ⟨hoffers.choices, hoffers.index, fun h => ⟨moveUp_of_selected h, moveDown_of_selected h⟩, hspeaks⟩

/-- Two choices, and one answer to the second of them. -/
def answered : List DialogueEntry :=
  [⟨"J1", true, "A", "hello", ""⟩, ⟨"J1", true, "B", "goodbye", ""⟩, ⟨"B", false, "3", "answer", ""⟩]

theorem run_offers_answered :
    let l : List Operation := [.setup "J1", .moveDown, .confirm, .speechFinished]
    (run answered l).state.selected = true ∧ (run answered l).state.moveUp = (run answered l).state ∧
      (run answered l).event = .speak "answer" ∧
      ∃ c, (run answered l).state.choices[(run answered l).state.index]? = some c ∧ c.speech = "answer" := by
  obtain ⟨-, -, hstill, hspoken⟩ := run_offers answered [.setup "J1", .moveDown, .confirm, .speechFinished]
  have hselected : (run answered [.setup "J1", .moveDown, .confirm, .speechFinished]).state.selected = true := by
    decide
  exact ⟨hselected, (hstill hselected).1, by decide, hspoken "answer" (by decide)⟩

end Underway

end Dialogue

end Adventure
