import Adventure.Proofs.Dialogue
import Adventure.Proofs.Game.Frozen

/-! How dialogues end. The number of an ending is noted when the choice with it has been spoken, but for the
kiss: then the speaker changes, and the dialogue is over some frames later, when the kiss has been shown. What is noted
then is only that a dialogue ended, and the number is still that of an earlier one. -/

namespace Adventure

namespace DialogueEnding

/-- What is noted of a dialogue that ends with this choice. -/
def noting (before : DialogueEnding) (c : DialogueEntry) : DialogueEnding where
  number := if c.number = kissEnding then before.number else c.number
  fresh := true

variable {before : DialogueEnding} {c : DialogueEntry}

theorem noting_kiss (h : c.number = kissEnding) : before.noting c = { before with fresh := true } := by
  rw [noting, if_pos h]

theorem noting_of_ne (h : c.number ≠ kissEnding) : before.noting c = { number := c.number, fresh := true } := by
  rw [noting, if_neg h]

end DialogueEnding

namespace Game

variable {g g' : Game}

/-- How the last dialogue ended, the mode, and the dialogue that is held. -/
def told (g : Game) : DialogueEnding × Mode × Option Dialogue :=
  (g.ending, g.mode, g.conversation.map Conversation.dialogue)

theorem unseen_told : Unseen told := fun _ _ _ _ _ _ => rfl

theorem draw_told : DrawActs (fun g g' : Game => g'.told = g.told) fun g g' => g'.told = g.told :=
  unseen_told.showActs.toDrawActs

/-! ### The player's choice -/

/-- The player moves between the choices and may confirm one. -/
def takeLine (i : Input) : M Unit := do
  chooseLine i
  if i.enter then
    onInput fun i => { i with enter := false }
    followEvent (← onDialogue Dialogue.confirm)

/-- The rest of a frame of a dialogue. -/
def tellOn : M Unit := do
  let g ← get
  let ended ← if g.isSelected && g.soundOver then goOn else pure false
  if !ended then drawDialogue

theorem dialogueFrame_eq (hheld : g.conversation.isSome = true) (hescape : g.stage.input.escape = false) :
    dialogueFrame g = (takeLine g.stage.input >>= fun _ => tellOn) g := by
  have hheld : ¬ g.conversation.isNone = true := by rw [← Option.not_isSome, hheld]; decide
  refine (bind_of_ok (m := input) rfl).trans ((bind_of_ok (m := get) rfl).trans ?_)
  rw [if_neg hheld]
  simp only [takeLine, hescape, bind_assoc]
  cases henter : g.stage.input.enter with
  | false => rfl
  | true => rfl

/-- How the last dialogue ended, the mode, and who speaks in the dialogue that is held. -/
def voice (g : Game) : DialogueEnding × Mode × Option Speaker :=
  (g.ending, g.mode, g.conversation.map fun c => c.dialogue.speaker)

theorem voice_told (h : g'.told = g.told) : g'.voice = g.voice := by
  have hmap (g : Game) : g.voice = (g.told.1, g.told.2.1, g.told.2.2.map Dialogue.speaker) := by
    simp only [voice, told, Option.map_map]
    rfl
  rw [hmap, hmap, h]

theorem draw_voice : DrawActs (fun g g' : Game => g'.voice = g.voice) fun g g' => g'.voice = g.voice :=
  (show Unseen voice from fun _ _ _ _ _ _ => rfl).showActs.toDrawActs

/-- A step of the dialogue that does not change who speaks. -/
theorem voice_onDialogue {f : Dialogue → DialogueEvent × Dialogue} (hf : ∀ d, (f d).2.speaker = d.speaker) :
    Leaves voice (onDialogue f) := by
  refine .changeGet fun g => ?_
  split
  · rfl
  · rename_i c hc
    simp only [voice, hc, Option.map_some, hf]

theorem voice_chooseLine (i : Input) : Leaves voice (chooseLine i) := by
  have hC := draw_voice.chains
  have move {c : Prop} [Decidable c] {f : Dialogue → DialogueEvent × Dialogue} {n : M Unit}
      (hf : ∀ d, (f d).2.speaker = d.speaker) (hn : Leaves voice n) : Leaves voice (do
        if c then discard (onDialogue f)
        n) := .ite (hC.bind (hC.bind (voice_onDialogue hf) fun _ => hC.value _) fun _ => hn) hn
  have down (d : Dialogue) : d.moveDown.speaker = d.speaker := by
    unfold Dialogue.moveDown
    split <;> rfl
  have up (d : Dialogue) : d.moveUp.speaker = d.speaker := by
    unfold Dialogue.moveUp
    split <;> rfl
  exact move down <| move up <| draw_voice.onInput _

theorem voice_takeLine (i : Input) : Leaves voice (takeLine i) := by
  have hC := draw_voice.chains
  have confirm (d : Dialogue) : d.confirm.2.speaker = d.speaker := by
    unfold Dialogue.confirm
    split <;> rfl
  exact hC.bind (voice_chooseLine i) fun _ => .ite (hC.bind (draw_voice.onInput _) fun _ =>
    hC.bind (voice_onDialogue confirm) fun e => draw_voice.followEvent e) (hC.value _)

/-! ### Drawing -/

/-- As long as this dialogue is held it stays as it is, and nothing is noted. -/
def Tells (d : Dialogue) (g g' : Game) : Prop := g.told.2.2 = some d → g'.told = g.told

theorem chains_tells (d : Dialogue) : Chains (Tells d) (Tells d) :=
  Chains.ofOrder (fun _ _ => rfl) fun h₁ h₂ hs => (h₂ (h₁ hs ▸ hs)).trans (h₁ hs)

theorem told_conversation {c : Conversation} (h : g.told.2.2 = some c.dialogue) :
    ({ g with conversation := some c } : Game).told = g.told :=
  Prod.ext rfl (Prod.ext rfl h.symm)

theorem tells_drawSpeaker (c : Conversation) (speaker : Speaker) :
    Within (Tells c.dialogue) (Tells c.dialogue) (drawSpeaker c speaker) :=
  within_drawSpeaker (chains_tells c.dialogue) c speaker (fun _ _ _ => rfl) fun _ c' hc' h =>
    told_conversation (c := c') (hc' ▸ h)

/-- Drawing a dialogue changes nothing in it. When the kiss has been shown to its end, it notes that a dialogue ended. -/
theorem drawDialogue_told (g : Game) : Leads drawDialogue g
    (fun _ g' => g'.told = g.told ∨ ((g.voice.2.2 = some .kiss) ∧
      g'.told = ({ g.ending with fresh := true }, .game, g.told.2.2)))
    fun g' => g'.told = g.told := by
  refine Leads.bind ((draw_told.drawDialogueScene g).mono (fun _ g₁ h₁ => Leads.look ?_) fun _ h => h)
  refine Leads.bind ((draw_told.eraseObjects _ g₁).mono (fun _ g₂ h₂ => Leads.look ?_) fun _ h => h.trans h₁)
  have h₂ : g₂.told = g.told := h₂.trans h₁
  split
  · exact Or.inl h₂
  · rename_i c hc
    have hheld : g₂.told.2.2 = some c.dialogue := by rw [told, hc]; rfl
    refine Leads.bind ((tells_drawSpeaker c _ g₂).mono (fun _ g₃ h₃ => Leads.look ?_) fun _ h => (h hheld).trans h₂)
    have h₃ : g₃.told = g.told := (h₃ hheld).trans h₂
    refine .ite (fun hkiss => Or.inr ⟨?_, ?_⟩) fun _ => Or.inl h₃
    · have hvoice : g₂.voice.2.2 = some c.dialogue.speaker := by rw [voice, hc]; rfl
      rw [← voice_told h₂, hvoice, hkiss.1]
    · have hending : g₃.ending = g.ending := congrArg Prod.fst h₃
      have hheld₃ : g₃.told.2.2 = g.told.2.2 := congrArg (fun t : DialogueEnding × Mode × Option Dialogue => t.2.2) h₃
      rw [← hheld₃, ← hending]
      rfl

/-! ### A frame of a dialogue -/

/-- The ending that has been spoken, when the dialogue is to go on. -/
def spokenEnding (g : Game) : Option DialogueEntry :=
  if g.isSelected && g.soundOver then (g.conversation.bind fun c => c.dialogue.current?).filter fun c => !c.goes
  else none

/-- The ending whose speech is over in a frame of a dialogue. -/
def finished (g : Game) : Option DialogueEntry :=
  if g.stage.input.escape then none
  else match takeLine g.stage.input g.counted with
    | .ok _ g => spokenEnding g
    | .error _ _ => none

variable {before : DialogueEnding} {last : Option DialogueEntry}

/-- A dialogue that goes on has noted nothing. A kiss is shown only when its ending was the last one spoken. -/
structure Telling (before : DialogueEnding) (last : Option DialogueEntry) (g : Game) : Prop where
  mode : g.mode = .dialogue
  ending : g.ending = before
  kiss : g.voice.2.2 = some .kiss → ∃ c, last = some c ∧ c.goes = false ∧ c.number = kissEnding

/-- A dialogue that is over has noted nothing or the ending that was spoken last. -/
structure Told (before : DialogueEnding) (last : Option DialogueEntry) (g : Game) : Prop where
  mode : g.mode = .game
  ending : g.ending = before ∨ ∃ c, last = some c ∧ c.goes = false ∧ g.ending = before.noting c

theorem Telling.congr (h : Telling before last g) (hvoice : g'.voice = g.voice) : Telling before last g' := by
  obtain ⟨hending, hmode, hspeaker⟩ := Prod.ext_iff.mp hvoice |>.imp_right Prod.ext_iff.mp
  exact ⟨hmode.trans h.mode, hending.trans h.ending, fun hkiss => h.kiss (hspeaker ▸ hkiss)⟩

/-- Drawing a dialogue goes on with it, or ends it with the kiss. -/
theorem Telling.drawDialogue (h : Telling before last g) :
    Leads drawDialogue g (fun _ g' => Telling before last g' ∨ Told before last g') fun g' => Telling before last g' := by
  refine (drawDialogue_told g).mono (fun _ g' hdrawn => ?_) fun _ hdrawn => h.congr (voice_told hdrawn)
  obtain hsame | ⟨hkiss, hended⟩ := hdrawn
  · exact .inl (h.congr (voice_told hsame))
  · obtain ⟨c, hlast, hgoes, hnumber⟩ := h.kiss hkiss
    refine .inr ⟨congrArg (fun t : DialogueEnding × Mode × Option Dialogue => t.2.1) hended, .inr ⟨c, hlast, hgoes, ?_⟩⟩
    have hnoted : g'.ending = { g.ending with fresh := true } := congrArg Prod.fst hended
    rw [hnoted, h.ending, DialogueEnding.noting_kiss hnumber]

theorem onDialogue_eq {c : Conversation} (hc : g.conversation = some c) (f : Dialogue → DialogueEvent × Dialogue) :
    onDialogue f g = .ok (f c.dialogue).1 { g with conversation := some { c with dialogue := (f c.dialogue).2 } } := by
  have hmodify (k : Game → DialogueEvent × Game) : (modifyGet k : M DialogueEvent) g = .ok (k g).1 (k g).2 := rfl
  rw [onDialogue, hmodify, hc]

/-- Where going on leads, once the marked choice has been spoken. -/
theorem Telling.goOn {c : Conversation} (h : Telling before last g) (hc : g.conversation = some c)
    (hselected : c.dialogue.selected = true) (hover : g.soundOver = true) :
    Leads goOn g
      (fun ended g' => if ended then Told before ((spokenEnding g).or last) g' else Telling before ((spokenEnding g).or last) g')
      fun _ => False := by
  have hspoken (e : DialogueEntry) (he : c.dialogue.current? = some e) (hgoes : e.goes = false) :
      (spokenEnding g).or last = some e := by
    have hsel : g.isSelected = true := by rw [isSelected, hc]; exact hselected
    simp [spokenEnding, hsel, hover, hc, he, hgoes]
  have hends := Dialogue.speechFinished_ends hselected
  refine Leads.bind ?_
  unfold Leads
  rw [onDialogue_eq hc]
  generalize c.dialogue.speechFinished = r at hends ⊢
  obtain ⟨event, d⟩ := r
  let g₁ : Game := { g with conversation := some { c with dialogue := d } }
  -- a dialogue that goes on without a kiss
  have goesOn (event : DialogueEvent) (hspeaker : d.speaker ≠ .kiss) :
      Leads (do followEvent event; return false : M Bool) g₁
        (fun ended g' => if ended then Told before ((spokenEnding g).or last) g' else Telling before ((spokenEnding g).or last) g')
        fun _ => False := by
    have hheld : Telling before ((spokenEnding g).or last) g₁ :=
      ⟨h.mode, h.ending, fun hkiss => absurd (Option.some_inj.mp hkiss) hspeaker⟩
    have hfollowed := (draw_voice.followEvent event g₁).and (followEvent_leads event g₁)
    exact Leads.bind (hfollowed.mono (fun _ _ h => hheld.congr h.1) fun _ h => h.2)
  cases event with
  | leave => exact ⟨rfl, .inl h.ending⟩
  | ended n =>
    obtain ⟨e, he, hgoes, hkiss, rfl⟩ := hends
    exact ⟨rfl, .inr ⟨e, hspoken e he hgoes, hgoes, (DialogueEnding.noting_of_ne hkiss).symm⟩⟩
  | kiss =>
    obtain ⟨e, he, hgoes, hkiss⟩ := hends
    exact ⟨h.mode, h.ending, fun _ => ⟨e, hspoken e he hgoes, hgoes, hkiss⟩⟩
  | nothing => exact goesOn .nothing hends
  | silence => exact goesOn .silence hends
  | speak file => exact goesOn (.speak file) hends

/-- The rest of a frame goes on with the dialogue, or ends it. -/
theorem Telling.tellOn (h : Telling before last g) :
    Leads tellOn g (fun _ g' => Telling before ((spokenEnding g).or last) g' ∨ Told before ((spokenEnding g).or last) g')
      fun g' => Telling before ((spokenEnding g).or last) g' := by
  refine Leads.look (.ite (fun hspoken => ?spoken) fun hspoken => ?waits)
  case spoken =>
    obtain ⟨hselected, hover⟩ := Bool.and_eq_true_iff.mp hspoken
    obtain ⟨c, hc, hselected⟩ : ∃ c, g.conversation = some c ∧ c.dialogue.selected = true := by
      cases hc : g.conversation with
      | none => rw [isSelected, hc] at hselected; cases hselected
      | some c => rw [isSelected, hc] at hselected; exact ⟨c, rfl, hselected⟩
    refine Leads.bind ((h.goOn hc hselected hover).mono (fun ended g₁ h₁ => ?_) fun _ h => h.elim)
    cases ended with
    | true => exact .inr h₁
    | false => exact Telling.drawDialogue h₁
  case waits =>
    have hnone : spokenEnding g = none := if_neg hspoken
    rw [hnone]
    exact h.drawDialogue

/-- A frame of a dialogue goes on with it, or ends it. -/
theorem Telling.dialogueFrame (h : Telling before last g) :
    Leads dialogueFrame g.counted
      (fun _ g' => Telling before ((finished g).or last) g' ∨ Told before ((finished g).or last) g')
      fun g' => Telling before ((finished g).or last) g' := by
  have h : Telling before last g.counted := h.congr rfl
  have hvoice := voice_takeLine g.stage.input g.counted
  by_cases htalks : g.conversation.isSome = true ∧ g.stage.input.escape = false
  case neg =>
    -- the player breaks the dialogue off
    refine Leads.look (Leads.look (.ite (fun _ => .inr ⟨rfl, .inl h.ending⟩) fun hheld => ?_))
    have hescape : g.stage.input.escape = true := by
      by_contra hno
      exact htalks ⟨Option.isSome_iff_ne_none.mpr fun hnone => hheld (Option.isNone_iff_eq_none.mpr hnone), by simpa using hno⟩
    have hnone : finished g = none := if_pos hescape
    rw [hnone]
    refine Leads.bind ((voice_chooseLine _ g.counted).mono (fun _ g₁ h₁ => ?_) fun g₁ h₁ => h.congr h₁)
    exact .ite (fun _ => .inr ⟨rfl, .inl (h.congr h₁).ending⟩) fun hno => absurd hescape hno
  case pos =>
    have hfinished : finished g = match takeLine g.stage.input g.counted with
      | .ok _ g => spokenEnding g
      | .error _ _ => none := if_neg (by rw [htalks.2]; decide)
    have hframe : Game.dialogueFrame g.counted = (takeLine g.stage.input >>= fun _ => Game.tellOn) g.counted :=
      dialogueFrame_eq htalks.1 htalks.2
    rw [hfinished, Leads, hframe]
    refine Leads.bind ?_
    unfold Leads at hvoice ⊢
    cases htaken : takeLine g.stage.input g.counted with
    | ok a g₁ =>
      rw [htaken] at hvoice
      exact (h.congr hvoice).tellOn
    | error e g₁ =>
      rw [htaken] at hvoice
      exact h.congr hvoice

/-! ### Whole dialogues -/

/-- A dialogue from the frame that begins it, with what had been noted before and the ending that was spoken last.
Between its frames the game may be changed in any way that leaves the dialogue, the mode and the notes as they are;
a frame may fail. -/
inductive Talk (before : DialogueEnding) : Option DialogueEntry → Game → Prop
  | begins {g : Game} (hg : Reachable g) (hmode : g.mode = .game) (hbegun : (after runFrame g).mode = .dialogue)
      (hbefore : (after runFrame g).ending = before) : Talk before none (after runFrame g)
  | changes {last : Option DialogueEntry} {g g' : Game} (hg : Talk before last g) (htold : g'.told = g.told) :
      Talk before last g'
  | frame {last : Option DialogueEntry} {g : Game} (hg : Talk before last g) (hmode : g.mode = .dialogue) :
      Talk before ((finished g).or last) (after runFrame g)

/-- How the last dialogue ended, and the mode. -/
def noted (g : Game) : DialogueEnding × Mode := (g.ending, g.mode)

theorem Told.congr (h : Told before last g) (hnoted : g'.noted = g.noted) : Told before last g' := by
  obtain ⟨hending, hmode⟩ := Prod.ext_iff.mp hnoted
  have hending : g'.ending = g.ending := hending
  exact ⟨hmode.trans h.mode, hending ▸ h.ending⟩

theorem noted_endDialogue : Leaves noted endDialogue := by
  have draw : DrawActs (fun g g' : Game => g'.noted = g.noted) fun g g' => g'.noted = g.noted :=
    (show Unseen noted from fun _ _ _ _ _ _ => rfl).showActs.toDrawActs
  have hC := draw.chains
  exact hC.bind (fun _ => rfl) fun _ => hC.look fun _ => hC.bind (draw.playMusic _) fun _ _ => rfl

/-- A dialogue goes on, or it is over. -/
def GoesOrOver (before : DialogueEnding) (last : Option DialogueEntry) (g : Game) : Prop :=
  Telling before last g ∨ Told before last g

/-- A frame that is run while a dialogue is held. -/
theorem Telling.runFrame (h : Telling before last g) : GoesOrOver before ((finished g).or last) (after runFrame g) := by
  have hend {g : Game} {last : Option DialogueEntry} (h : GoesOrOver before last g) :
      Leads (do endFrame; return true : M Bool) g (fun _ => GoesOrOver before last) (GoesOrOver before last) := by
    change GoesOrOver before last _
    exact h.imp (·.congr (by simp only [voice])) (·.congr (by simp only [noted]))
  refine Leads.after ?_
  unfold Leads
  rw [runFrame_eq, h.mode]
  refine Leads.bind (h.dialogueFrame.mono (fun _ g₁ h₁ => Leads.look (.ite (fun hmode => ?_) fun _ => hend h₁)) fun _ => .inl)
  have hover : Told before ((finished g).or last) g₁ := h₁.resolve_left fun h => nomatch h.mode.symm.trans hmode
  exact Leads.bind ((noted_endDialogue g₁).mono (fun _ _ h => hend (.inr (hover.congr h))) fun _ h => .inr (hover.congr h))

/-- The kiss is not being shown. -/
def Unkissed (g : Game) : Prop := g.voice.2.2 ≠ some .kiss

theorem Silent.unkissed (h : Silent g) : Unkissed g := by
  have hnone : g.conversation = none := Option.not_isSome_iff_eq_none.mp (Bool.eq_false_iff.mp h.2)
  rw [Unkissed, voice, hnone]
  exact nofun

/-- A dialogue begins with what its first entries are spoken by. -/
theorem unkissed_beginDialogue (g : Game) : Leads beginDialogue g (fun _ => Unkissed) fun _ => True := by
  have reads {α β : Type} {m : M α} {f : α → M β} {good : β → Game → Prop}
      (hf : ∀ a (g : Game), Leads (f a) g good fun _ => True) (g : Game) : Leads (m >>= f) g good fun _ => True :=
    Leads.bind ((within_anyhow m g).mono (fun a g₁ _ => hf a g₁) fun _ _ => trivial)
  refine reads (fun _ g₁ => Leads.look ?_) g
  refine reads (fun frame => reads fun jack => reads fun other => reads fun kiss => reads fun d g₂ => ?_) g₁
  let c : Conversation := ⟨(d.setup g₁.dialogueRequest.id).2, frame, ⟨jack, other, kiss⟩, ⟨0, 0, 0⟩, Conversation.area⟩
  let begun (g : Game) : Game := { g with conversation := some c }
  have hbegun : Unkissed (begun g₂) := fun hkiss => by
    have hspeaker : c.dialogue.speaker = .kiss := Option.some_inj.mp hkiss
    rw [show c.dialogue.speaker = _ from Dialogue.speaker_setup _ _] at hspeaker
    exact Dialogue.speakerOf_ne_kiss _ hspeaker
  refine Leads.bind (m := modify begun) (Leads.bind ((draw_voice.followEvent _ (begun g₂)).mono (fun _ g₃ h₃ => ?_) fun _ _ => trivial))
  change g₃.voice.2.2 ≠ some .kiss
  rw [h₃]
  exact hbegun

/-- A dialogue that a frame begins is not a kiss. -/
theorem begins_telling (hg : Reachable g) (hmode : g.mode = .game) (hbegun : (after Game.runFrame g).mode = .dialogue) :
    Telling (after Game.runFrame g).ending none (after Game.runFrame g) := by
  have hsilent : Silent g.counted := hg.inStep.silent fun h => nomatch hmode.symm.trans h
  have ends : Ends (fun g g' : Game => Silent g → Silent g') (fun g g' => Silent g → Silent g')
      (fun g g' => Silent g → Unkissed g') fun g g' => Silent g → Unkissed g' := {
    done := fun h hg => (h hg).unkissed
    stopped := fun h hg => (h hg).unkissed
    behind := fun h h' hg => h' (h hg)
    fails := fun h h' hg => h' (h hg) }
  have begins : Within (fun g g' : Game => Silent g → Unkissed g') (fun g g' => Silent g → Unkissed g') beginDialogue := fun g =>
    ((unkissed_beginDialogue g).and (beginDialogue_leads g)).mono (fun _ _ h _ => h.1) fun _ h hg =>
      (hg.congr (stance_core (core_of_still h.2))).unkissed
  have hunkissed : Unkissed (after Game.runFrame g) := by
    have hframe := (silent_acts.gameFrame ends begins g.counted).mono (fun _ _ h => h hsilent) fun _ h => h hsilent
    rw [after, runFrame_game hmode]
    exact hframe.after
  exact ⟨hbegun, rfl, fun hkiss => absurd hkiss hunkissed⟩

theorem Talk.goesOrOver (h : Talk before last g) : GoesOrOver before last g := by
  induction h with
  | begins hg hmode hbegun hbefore => exact .inl (hbefore ▸ begins_telling hg hmode hbegun)
  | changes _ htold ih =>
    exact ih.imp (·.congr (voice_told htold)) (·.congr (congrArg (fun t : DialogueEnding × Mode × Option Dialogue => (t.1, t.2.1)) htold))
  | frame _ hmode ih =>
    have htelling := ih.resolve_right fun h => nomatch h.mode.symm.trans hmode
    exact htelling.runFrame

/-- A dialogue that is over and has set the mark ended with the choice that was spoken last. Its number is the one of that
choice but for a kiss, which leaves the number of an earlier dialogue. -/
theorem Talk.ending_number (h : Talk before last g) (hbefore : before.fresh = false) (hover : g.mode ≠ .dialogue)
    (hfresh : g.ending.fresh = true) : ∃ c, last = some c ∧ c.goes = false ∧
      (g.ending.number = c.number ↔ c.number ≠ kissEnding ∨ before.number = kissEnding) := by
  have htold := h.goesOrOver.resolve_left fun h => hover h.mode
  obtain hsame | ⟨c, hlast, hgoes, hending⟩ := htold.ending
  · rw [hsame, hbefore] at hfresh
    cases hfresh
  · refine ⟨c, hlast, hgoes, ?_⟩
    rw [hending]
    by_cases hkiss : c.number = kissEnding
    · simp [DialogueEnding.noting_kiss hkiss, hkiss]
    · simp [DialogueEnding.noting_of_ne hkiss, hkiss]

/-! ### A dialogue of one line -/

/-- A packed picture of one point. -/
def pointPicture : ByteArray := Bytes.ofList [0, 0, 5, 0, 0, 0, 0, 0, 0, 0]

/-- The files of a demo in which this is said. -/
def sayingFiles (lines : String) : DataDir :=
  { talkingFiles with files := ⟨"SCN/d", plainBytes lines⟩ :: ⟨"wgp/frame.spr", pointPicture⟩ :: talkingFiles.files }

/-- In front of the second frame, which begins the dialogue. -/
noncomputable def sayingDemo (lines : String) : Game := after runFrame (demoGame (sayingFiles lines) "-01.SCN")

/-- The next frame begins a dialogue and the one behind it ends it. -/
def talksOnce (c : DialogueEntry) (ending : DialogueEnding) (g : Game) : Bool :=
  decide (g.mode = .game) && passes runFrame (fun g => decide (g.mode = .dialogue) && decide (g.ending = {}) &&
    decide (finished g = some c) && passes runFrame (fun g => decide (g.mode = .game) && decide (g.ending = ending)) g) g

theorem Talk.of_talksOnce {c : DialogueEntry} {ending : DialogueEnding} (hg : Reachable g) (h : talksOnce c ending g = true) :
    ∃ g', Talk {} (some c) g' ∧ g'.mode = .game ∧ g'.ending = ending := by
  simp only [talksOnce, Bool.and_eq_true, decide_eq_true_eq] at h
  obtain ⟨hmode, h⟩ := h
  obtain ⟨_, -, h⟩ := of_passes h
  simp only [Bool.and_eq_true, decide_eq_true_eq] at h
  obtain ⟨⟨⟨hbegun, hbefore⟩, hfinished⟩, h⟩ := h
  obtain ⟨_, -, h⟩ := of_passes h
  simp only [Bool.and_eq_true, decide_eq_true_eq] at h
  have htalk : Talk {} ((finished (after Game.runFrame g)).or none) (after Game.runFrame (after Game.runFrame g)) :=
    (Talk.begins hg hmode hbegun hbefore).frame hbegun
  rw [hfinished] at htalk
  exact ⟨_, htalk, h⟩

/-- A kiss does not count as the ending that it is. -/
theorem kiss_not_noted : ∃ before c g, Talk before (some c) g ∧ before.fresh = false ∧ g.mode ≠ .dialogue ∧
    g.ending.fresh = true ∧ c.goes = false ∧ c.number = 100 ∧ g.ending.number = 0 := by
  have hreach : Reachable (sayingDemo "\"\" End 100 s -> x") :=
    (Reachable.start (startDemo_eq (by decide : firstScenes.find? _ = some "-01.SCN") rfl rfl)).frame
  have htalks : talksOnce ⟨"", false, "100", "s", "x"⟩ ⟨0, true⟩ (sayingDemo "\"\" End 100 s -> x") = true := by
    decide +kernel
  obtain ⟨g, htalk, hmode, hending⟩ := Talk.of_talksOnce hreach htalks
  refine ⟨{}, _, g, htalk, rfl, ?_, ?_, rfl, by decide, ?_⟩
  · rw [hmode]
    decide
  · rw [hending]
  · rw [hending]

theorem Talk.ending_number_seven : ∃ before c g, Talk before (some c) g ∧ before.fresh = false ∧ g.mode ≠ .dialogue ∧
    g.ending.fresh = true ∧ c.number = 7 ∧ g.ending.number = c.number := by
  have hreach : Reachable (sayingDemo "\"\" End 7 s -> x") :=
    (Reachable.start (startDemo_eq (by decide : firstScenes.find? _ = some "-01.SCN") rfl rfl)).frame
  have htalks : talksOnce ⟨"", false, "7", "s", "x"⟩ ⟨7, true⟩ (sayingDemo "\"\" End 7 s -> x") = true := by
    decide +kernel
  obtain ⟨g, htalk, hmode, hending⟩ := Talk.of_talksOnce hreach htalks
  have hover : g.mode ≠ .dialogue := by rw [hmode]; decide
  have hfresh : g.ending.fresh = true := by rw [hending]
  obtain ⟨c, hlast, -, hnumber⟩ := htalk.ending_number rfl hover hfresh
  cases hlast
  exact ⟨{}, _, g, htalk, rfl, hover, hfresh, by decide, hnumber.mpr (.inl (by decide))⟩

end Game

end Adventure
