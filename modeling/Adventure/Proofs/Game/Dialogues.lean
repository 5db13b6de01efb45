import Adventure.Proofs.Game.Bag
import Adventure.Proofs.Game.Ground

/-! While a dialogue is held or the bag is open the scene stands still. A frame of a dialogue ends it, if anything,
and a frame of the bag selects something in it, takes a weapon to hand, or closes it. -/

namespace Adventure.Game

variable {g g' : Game}

/-! ### Dialogues -/

theorem still_mode (h : g'.still = g.still) (mode : Mode) : ({ g' with mode } : Game).still = ({ g with mode } : Game).still :=
  congrArg (fun s : (Ground × Core) × SceneTables × Vars => ((s.1.1, { s.1.2 with mode }), s.2)) h

/-- What a dialogue asks for is done without fail. -/
theorem followEvent_leads (e : DialogueEvent) (g : Game) : Leads (followEvent e) g (fun _ g' => g'.still = g.still) fun _ => False := by
  cases e with
  | speak file => exact draw_still.startSound file g
  | silence => exact draw_still.stopSound g
  | _ => exact (rfl : g.still = g.still)

/-- A dialogue that goes on is still held. -/
theorem still_conversation {c : Conversation} (h : g.conversation.isSome) : ({ g with conversation := some c } : Game).still = g.still := by
  simp only [still, hull, core, h, Option.isSome_some]
  rfl

theorem still_onDialogue (f : Dialogue → DialogueEvent × Dialogue) : Leaves still (onDialogue f) := by
  refine .changeGet fun g => ?_
  split
  · rfl
  · rename_i c hc
    exact still_conversation (by rw [hc]; rfl)

theorem still_chooseLine (i : Input) : Leaves still (chooseLine i) := by
  have hC := draw_still.chains
  have move {c : Prop} [Decidable c] {f : Dialogue → DialogueEvent × Dialogue} {n : M Unit} (hn : Leaves still n) :
      Leaves still (do
        if c then discard (onDialogue f)
        n) := .ite (hC.bind (hC.bind (still_onDialogue f) fun _ => hC.value _) fun _ => hn) hn
  exact move <| move <| draw_still.onInput _

namespace DrawActs

variable {K E : Game → Game → Prop} (hK : DrawActs K E)
include hK

theorem followEvent (e : DialogueEvent) : Within K E (followEvent e) := by
  cases e with
  | speak file => exact hK.startSound file
  | silence => exact hK.stopSound
  | _ => exact hK.chains.value _

theorem drawDialogueScene : Within K E drawDialogueScene :=
  have hC := hK.chains
  hC.look fun _ => hC.bind (hK.drawLayers _ _ _) fun _ g => hK.aside g _ _ _ _

theorem eraseObject (i : Nat) : Within K E (eraseObject i) := by
  have hC := hK.chains
  refine hC.look fun _ => .ite (hC.bind (hC.lift _) fun _ => ?_) (hC.value _)
  exact hK.onFrame fun s => Block.shape_copy _ _ _ _ _ s

theorem eraseObjects (l : List Nat) : Within K E (eraseObjects l) := by
  have hC := hK.chains
  induction l with
  | nil => exact hC.value _
  | cons i l ih => exact hC.bind (hK.eraseObject i) fun _ => ih

end DrawActs

/-- As long as a dialogue is held the scene stands still. -/
def Held (g g' : Game) : Prop := g.conversation.isSome → g'.still = g.still

theorem chains_held : Chains Held Held := by
  refine Chains.ofOrder (fun _ _ => rfl) fun {s t u} h₁ h₂ hs => ?_
  have ht : t.still = s.still := h₁ hs
  have htalks : t.conversation.isSome = s.conversation.isSome :=
    congrArg (fun s : (Ground × Core) × SceneTables × Vars => s.1.2.talks) ht
  exact (h₂ (htalks.trans hs)).trans ht

/-- Drawing a speaker shows something and turns to another picture; the dialogue itself stays as it is. -/
theorem within_drawSpeaker {K E : Game → Game → Prop} (hC : Chains K E) (c : Conversation) (speaker : Speaker)
    (hshows : ∀ (g : Game) (stage : Stage), K g { g with stage })
    (hturns : ∀ (g : Game) (c' : Conversation), c'.dialogue = c.dialogue → K g { g with conversation := some c' }) :
    Within K E (drawSpeaker c speaker) := by
  have sprite (x y : Int) (w h : Nat) (sprite : ByteArray) : Within K E (showSprite x y w h sprite) := fun g => hshows g _
  refine hC.bind (hC.lift _) fun frame => ?_
  let c' : Conversation := { c with textRect := (Conversation.layout speaker (Sprite.width frame)).2 }
  refine hC.bind (fun g => hturns g c' rfl) fun _ => hC.bind (sprite _ _ _ _ _) fun _ => ?_
  dsimp only
  split
  · exact hC.value _
  · exact hC.bind (hC.lift _) fun _ => hC.bind (sprite _ _ _ _ _) fun _ g => hturns g _ rfl

/-- The scene stood still, and the dialogue went on or ended. -/
def Talked (g g' : Game) : Prop := g'.still = g.still ∨ g'.still = ({ g with mode := .game } : Game).still

theorem Talked.of_still {g₁ : Game} (h : Talked g₁ g') (h₁ : g₁.still = g.still) : Talked g g' :=
  h.imp (·.trans h₁) (·.trans (still_mode h₁ .game))

/-- Drawing a dialogue ends it when the kiss has been shown. -/
theorem drawDialogue_leads (g : Game) :
    Leads drawDialogue g (fun _ g' => Talked g g') fun g' => g'.still = g.still := by
  refine Leads.bind ((draw_still.drawDialogueScene g).mono (fun _ g₁ h₁ => Leads.look ?_) fun _ h => h)
  refine Leads.bind ((draw_still.eraseObjects _ g₁).mono (fun _ g₂ h₂ => Leads.look ?_) fun _ h => h.trans h₁)
  have h₂ : g₂.still = g.still := h₂.trans h₁
  split
  · exact Or.inl h₂
  · rename_i c hc
    have hheld : g₂.conversation.isSome := by rw [hc]; rfl
    have hdrawn := within_drawSpeaker chains_held c c.dialogue.speaker (fun _ _ _ => rfl) (fun _ _ _ => still_conversation) g₂
    refine Leads.bind (hdrawn.mono (fun _ g₃ h₃ => Leads.look ?_) fun _ h => (h hheld).trans h₂)
    have h₃ : g₃.still = g.still := (h₃ hheld).trans h₂
    exact .ite (fun _ => Or.inr (still_mode h₃ .game)) fun _ => Or.inl h₃

/-- When what was chosen has been spoken the dialogue is over, or it goes on. -/
theorem goOn_leads (g : Game) :
    Leads goOn g (fun ended g' => g'.still = if ended then ({ g with mode := .game } : Game).still else g.still)
      fun g' => g'.still = g.still := by
  refine Leads.bind ((still_onDialogue _ g).mono (fun e g₁ h₁ => ?_) fun _ h => h)
  split
  · exact still_mode h₁ .game
  · exact still_mode h₁ .game
  · exact Leads.bind ((draw_still.followEvent e g₁).mono (fun _ g₂ h₂ => h₂.trans h₁) fun _ h => h.trans h₁)

/-- A frame of a dialogue leaves the scene as it is. It ends the dialogue, or the dialogue goes on; if it fails the
dialogue goes on. -/
theorem dialogueFrame_leads (g : Game) :
    Leads dialogueFrame g (fun _ g' => Talked g g') fun g' => g'.still = g.still := by
  have draw (g₂ : Game) (h₂ : g₂.still = g.still) : Leads drawDialogue g₂ (fun _ g' => Talked g g') fun g' => g'.still = g.still :=
    (drawDialogue_leads g₂).mono (fun _ _ h => h.of_still h₂) fun _ h => h.trans h₂
  have speak (g₁ : Game) (h₁ : g₁.still = g.still) : Leads (do
      let g ← get
      let ended ← if g.isSelected && g.soundOver then goOn else pure false
      if !ended then drawDialogue : M Unit) g₁ (fun _ g' => Talked g g') fun g' => g'.still = g.still := by
    refine Leads.look (.ite (fun _ => ?_) fun _ => draw g₁ h₁)
    refine Leads.bind ((goOn_leads g₁).mono (fun ended g₂ h₂ => ?_) fun _ h => h.trans h₁)
    cases ended with
    | true => exact Or.inr (h₂.trans (still_mode h₁ .game))
    | false => exact draw g₂ (h₂.trans h₁)
  refine Leads.look (Leads.look (.ite (fun _ => Or.inr rfl) fun _ => ?_))
  refine Leads.bind ((still_chooseLine _ g).mono (fun _ g₁ h₁ => ?_) fun _ h => h)
  refine .ite (fun _ => Or.inr (still_mode h₁ .game)) fun _ => .ite (fun _ => ?_) fun _ => speak g₁ h₁
  refine Leads.bind (m := onInput _) (Leads.bind ((still_onDialogue _ _).mono (fun e g₂ h₂ => ?_) fun _ h => h.trans h₁))
  have h₂ : g₂.still = g.still := h₂.trans h₁
  exact Leads.bind ((draw_still.followEvent e g₂).mono (fun _ g₃ h₃ => speak g₃ (h₃.trans h₂)) fun _ h => h.trans h₂)

/-- A dialogue begins once all its files have been read. -/
theorem beginDialogue_leads (g : Game) :
    Leads beginDialogue g
      (fun _ g' => ∃ c, g'.still = ({ g with mode := .dialogue, conversation := some c } : Game).still)
      fun g' => g'.still = g.still := by
  have hC := draw_still.chains
  have file (name : String) : Leaves still (readFile name) := hC.look fun _ => hC.lift _
  have head (name : String) : Leaves still (readResource decodeTalkingHead name) := hC.bind (file name) fun _ => hC.lift _
  have lines (name : String) : Leaves still (readDialogue name) := hC.bind (file name) fun _ => hC.bind (hC.lift _) fun _ => hC.value _
  have reads {α β : Type} {m : M α} {f : α → M β} {good : β → Game → Prop} (hm : Leaves still m)
      (hf : ∀ a (g₁ : Game), g₁.still = g.still → Leads (f a) g₁ good fun g' => g'.still = g.still) (g₁ : Game)
      (h₁ : g₁.still = g.still) : Leads (m >>= f) g₁ good fun g' => g'.still = g.still :=
    Leads.bind ((hm g₁).mono (fun a g₂ h₂ => hf a g₂ (h₂.trans h₁)) fun _ h => h.trans h₁)
  refine reads (draw_still.playMusic _) (fun _ g₁ h₁ => Leads.look ?_) g rfl
  refine reads (file _) (fun frame => reads (head _) fun jack => reads (head _) fun other => reads (head _) fun kiss =>
    reads (lines _) fun d g₂ h₂ => ?_) g₁ h₁
  -- Nothing fails once the dialogue is there.
  let c : Conversation := ⟨(d.setup g₁.dialogueRequest.id).2, frame, ⟨jack, other, kiss⟩, ⟨0, 0, 0⟩, Conversation.area⟩
  let begun (g : Game) : Game := { g with conversation := some c }
  have hbegun : (begun g₂).still = (begun g).still :=
    congrArg (fun s : (Ground × Core) × SceneTables × Vars => ((s.1.1, { s.1.2 with talks := true }), s.2)) h₂
  refine Leads.bind (m := modify begun) (Leads.bind ((followEvent_leads _ (begun g₂)).mono (fun _ g₃ h₃ => ?_) fun _ h => h.elim))
  exact ⟨_, still_mode (h₃.trans hbegun) .dialogue⟩

/-- When a dialogue is over nothing is held. -/
theorem endDialogue_leads (g : Game) :
    Leads endDialogue g (fun _ g' => g'.still = ({ g with conversation := none } : Game).still) fun _ => False := by
  have music : Leaves still (playMusic g.music.name) := draw_still.playMusic _
  exact music { g with conversation := none }

/-! ### The bag -/

/-- Where a frame of the bag leads: to what stands in the relation `K` to where it started if it succeeds, and in
the relation `E` if it fails. -/
structure BagActs (K E : Game → Game → Prop) : Prop where
  chains : Chains K E
  still : ∀ {g g' : Game}, g'.still = g.still → K g g'
  selects : ∀ {g : Game} {b : Bag}, g.bag.Selecting b → K g { g with bag := b }
  weapon : ∀ (i : Fin numVars) (v : Int16), i = Var.sword ∨ i = Var.gun → Within K E (setVar i v)
  closes : ∀ g, K g { g with mode := .game }

namespace BagActs

variable {K E : Game → Game → Prop} (hK : BagActs K E)
include hK

theorem change {f : Game → Game} (hf : ∀ g, (f g).still = g.still) : Within K E (modify f : M PUnit) := fun g => hK.still (hf g)

theorem input (f : Input → Input) : Within K E (onInput f) := hK.change fun _ => rfl

/-- One weapon is taken to hand in place of the other. -/
theorem weapons {i j : Fin numVars} (v w : Int16) (hi : i = Var.sword ∨ i = Var.gun) (hj : j = Var.sword ∨ j = Var.gun) :
    Within K E (do setVar i v; setVar j w : M Unit) :=
  hK.chains.bind (hK.weapon i v hi) fun _ => hK.weapon j w hj

theorem selectSword : Within K E selectSword :=
  hK.chains.look fun _ => .ite (hK.weapons 2 1 (.inr rfl) (.inl rfl)) (hK.chains.value _)

theorem selectGun : Within K E selectGun :=
  hK.chains.look fun _ => .ite (hK.weapons 1 2 (.inr rfl) (.inl rfl)) (hK.chains.value _)

theorem clickBag (x y : Int) : Within K E (clickBag x y) :=
  have hC := hK.chains
  hC.bind (fun _ => hK.selects (.click x y)) fun _ => hC.look fun _ =>
    .ite (hC.bind hK.selectGun fun _ => .ite hK.selectSword (hC.value _)) (.ite hK.selectSword (hC.value _))

theorem drawBag : Within K E drawBag := hK.change fun g => by simp only [Game.still, hull, ground, core]

/-- A step that is taken when a direction is held, and what follows. -/
theorem direction {α : Type} (i : Input) (d : Direction) {m : M Unit} {n : M α} (hm : Within K E m) (hn : Within K E n) :
    Within K E (do
      if ← takeDirection i d then m
      n) := by
  have hC := hK.chains
  have take : Within K E (takeDirection i d) := .ite (hC.bind (hK.input _) fun _ => hC.value _) (hC.value _)
  exact hC.bind take fun _ => .ite (hC.bind hm fun _ => hn) hn

theorem bagFrame : Within K E bagFrame := by
  have hC := hK.chains
  have rest (i : Input) : Within K E (do
      if i.tab || i.enter then
        onInput fun i => { i with tab := false, enter := false }
        modify fun g => { g with mode := .game }
      else
        if ← takeDirection i .left then onBag Bag.moveLeft
        if ← takeDirection i .right then onBag Bag.moveRight
        if ← takeDirection i .down then Game.selectSword
        if ← takeDirection i .up then Game.selectGun
        Game.drawBag
        modify fun g => { g with ui := g.ui.nextFrames g.vars g.bag } : M Unit) :=
    .ite (hC.bind (hK.input _) fun _ => hK.closes) <|
      hK.direction i .left (fun _ => hK.selects .left) <| hK.direction i .right (fun _ => hK.selects .right) <|
        hK.direction i .down hK.selectSword <| hK.direction i .up hK.selectGun <|
          hC.bind hK.drawBag fun _ => hK.change fun _ => rfl
  exact hC.look fun g => hC.look fun _ => .ite (hC.bind (hK.input _) fun _ => hC.bind (hK.clickBag _ _) fun _ => rest g.stage.input)
    (rest g.stage.input)

end BagActs

end Adventure.Game
