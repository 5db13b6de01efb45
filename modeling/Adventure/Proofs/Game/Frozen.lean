import Adventure.Proofs.Game.Restoring

/-! A dialogue is held just while the mode is that of dialogues, in every game that can come to be; only the last step of
a frame begins one. Frames of a dialogue and of the bag leave the scene frozen. -/

namespace Adventure.Game

variable {g g' : Game}

/-- The mode, and whether a dialogue is held. -/
def stance (g : Game) : Mode × Bool := (g.mode, g.conversation.isSome)

/-- A dialogue is held just while the mode is that of dialogues. -/
def InStep (g : Game) : Prop := g.stance.1 = .dialogue ↔ g.stance.2

/-- No dialogue is held, in another mode. -/
def Silent (g : Game) : Prop := g.stance.1 ≠ .dialogue ∧ g.stance.2 = false

theorem Silent.inStep (h : Silent g) : InStep g := by
  constructor
  · intro hmode
    exact absurd hmode h.1
  · intro htalks
    rw [h.2] at htalks
    cases htalks

theorem InStep.silent (h : InStep g) (hmode : g.mode ≠ .dialogue) : Silent g :=
  ⟨hmode, Bool.eq_false_iff.mpr fun htalks => hmode (h.mpr htalks)⟩

theorem Silent.congr (hg : Silent g) (h : g'.stance = g.stance) : Silent g' := by rwa [Silent, h]

theorem InStep.congr (hg : InStep g) (h : g'.stance = g.stance) : InStep g' := by rwa [InStep, h]

theorem stance_core (h : g'.core = g.core) : g'.stance = g.stance := congrArg (fun c : Core => (c.mode, c.talks)) h

theorem core_of_still (h : g'.still = g.still) : g'.core = g.core :=
  congrArg (fun s : (Ground × Core) × SceneTables × Vars => s.1.2) h

/-- What a scene is made of. -/
theorem scene_of_still (h : g'.still = g.still) :
    g'.vars = g.vars ∧ g'.defaultVars = g.defaultVars ∧ g'.tables = g.tables ∧ g'.bag = g.bag := by
  obtain ⟨hhull, htables, hvars⟩ := Prod.ext_iff.mp h |>.imp_right Prod.ext_iff.mp
  exact ⟨hvars, congrArg (fun s : Ground × Core => s.1.defaultVars) hhull, htables, congrArg Core.bag (core_of_still h)⟩

/-! ### Frames of the scene -/

theorem unloaded_stance : Unloaded stance := fun _ _ _ _ _ _ _ _ _ => rfl

/-- What leaves the stance as it is keeps a game silent. -/
theorem silent_leaves {α : Type} {m : M α} (hm : Leaves stance m) :
    Within (fun g g' => Silent g → Silent g') (fun g g' => Silent g → Silent g') m := fun g =>
  (hm g).mono (fun _ _ h hg => hg.congr h) fun _ h hg => hg.congr h

theorem stance_saveSlot (slot : Nat) : Leaves stance (saveSlot slot) := by
  refine fun g => (saveSlot_leads slot g).mono (fun _ g' h => ?_) fun g' h => ?_
  · obtain ⟨_, saves, -, -, rfl⟩ := h
    rfl
  · rw [h]

/-- Everything but the beginning of a dialogue keeps a game silent. -/
theorem silent_acts : GameActs (fun g g' : Game => Silent g → Silent g') fun g g' => Silent g → Silent g' where
  chains := Chains.keeps fun _ => id
  moves h hg := hg.congr (stance_core (Prod.ext_iff.mp h).2)
  shows _ _ := id
  bag _ := id
  asks _ := id
  forgets _ := id
  keepsBoxes _ _ := id
  follows _ := id
  finishes _ := id
  dropBehind anim := silent_leaves (unloaded_stance.unstocked.dropBehind anim)
  core h hg := hg.congr (stance_core h)
  enters _ := id
  readScene name _ := silent_leaves (unloaded_stance.readScene (fun _ => rfl) name)
  loadMovie name := silent_leaves (unloaded_stance.unstocked.loadMovie name)
  asksSaved _ _ := id
  restores _ _ hg := hg.congr (by simp only [restore, stance])
  saveSlot slot := silent_leaves (stance_saveSlot slot)
  restarts _ _ := ⟨fun h => (nomatch h), rfl⟩
  mode _ _ hmode h := ⟨hmode, h.2⟩
  ends _ h := ⟨h.1, rfl⟩

/-- A silent game is in step at the end. -/
theorem silent_ends : Ends (fun g g' : Game => Silent g → Silent g') (fun g g' => Silent g → Silent g')
    (fun g g' => Silent g → InStep g') fun g g' => Silent g → InStep g' where
  done h hg := (h hg).inStep
  stopped h hg := (h hg).inStep
  behind h h' := h' ∘ h
  fails h h' := h' ∘ h

theorem silent_beginDialogue : Within (fun g g' : Game => Silent g → InStep g') (fun g g' => Silent g → InStep g') beginDialogue := by
  refine fun g => (beginDialogue_leads g).mono (fun _ g' h _ => ?_) fun g' h hg => ?_
  · obtain ⟨c, h⟩ := h
    have hstance : g'.stance = (.dialogue, true) := stance_core (core_of_still h)
    rw [InStep, hstance]
    exact ⟨fun _ => rfl, fun _ => rfl⟩
  · exact (hg.congr (stance_core (core_of_still h))).inStep

/-! ### Frames of dialogues -/

/-- The end of a dialogue, which is no longer the mode. -/
theorem still_ended (h : Talked g g') (hmode : g'.mode = .game) :
    ({ g' with conversation := none } : Game).still = ({ g with mode := .game, conversation := none } : Game).still := by
  have hended : g'.still = ({ g with mode := .game } : Game).still := by
    obtain h | h := h
    · have hstill := still_mode h .game
      rwa [show ({ g' with mode := .game } : Game) = g' from hmode ▸ rfl] at hstill
    · exact h
  exact congrArg (fun s : (Ground × Core) × SceneTables × Vars => ((s.1.1, { s.1.2 with talks := false }), s.2)) hended

/-- In a frame of a dialogue the scene stands still, and the dialogue is held or over. -/
theorem talkFrame_leads (g : Game) :
    Leads (do
      dialogueFrame
      if (← get).mode = .game then endDialogue
      endFrame
      return true : M Bool) g
      (fun _ g' => g'.mode ≠ .game ∧ g'.still = g.still ∨
        g'.still = ({ g with mode := .game, conversation := none } : Game).still)
      fun g' => g'.still = g.still := by
  have hend (g : Game) : Leads (do endFrame; return true : M Bool) g (fun _ g' => g'.still = g.still) fun _ => False := by
    change Game.still _ = g.still
    simp only [still, hull, ground, core]
  refine Leads.bind ((dialogueFrame_leads g).mono (fun _ g₁ h₁ => Leads.look ?_) fun _ h => h)
  refine .ite (fun hmode => ?ends) fun hmode => ?goesOn
  case ends =>
    refine Leads.bind ((endDialogue_leads g₁).mono (fun _ g₂ h₂ => ?_) fun _ h => h.elim)
    exact (hend g₂).mono (fun _ _ h => Or.inr (h.trans (h₂.trans (still_ended h₁ hmode)))) fun _ h => h.elim
  case goesOn =>
    refine (hend g₁).mono (fun _ g' h => ?_) fun _ h => h.elim
    have hmode' : g'.mode = g₁.mode := congrArg Core.mode (core_of_still h)
    obtain h₁ | h₁ := h₁
    · exact Or.inl ⟨hmode'.symm ▸ hmode, h.trans h₁⟩
    · exact absurd (congrArg Core.mode (core_of_still h₁)) hmode

/-! ### Frames of the bag -/

/-- The scene has stood still, but for the weapons at hand and what is selected in the bag. -/
structure Stands (g g' : Game) : Prop where
  defaultVars : g'.defaultVars = g.defaultVars
  tables : g'.tables = g.tables
  entries : g'.bag.entries = g.bag.entries
  place : g'.bag.x = g.bag.x ∧ g'.bag.y = g.bag.y
  vars : ∀ i : Fin numVars, i ≠ Var.sword → i ≠ Var.gun → g'.vars.get i = g.vars.get i

theorem chains_stands : Chains Stands Stands :=
  Chains.ofOrder (fun _ => ⟨rfl, rfl, rfl, ⟨rfl, rfl⟩, fun _ _ _ => rfl⟩) fun h h' =>
    ⟨h'.defaultVars.trans h.defaultVars, h'.tables.trans h.tables, h'.entries.trans h.entries,
      ⟨h'.place.1.trans h.place.1, h'.place.2.trans h.place.2⟩, fun i hs hg => (h'.vars i hs hg).trans (h.vars i hs hg)⟩

theorem Stands.of_still (h : g'.still = g.still) : Stands g g' := by
  obtain ⟨hvars, hdefault, htables, hbag⟩ := scene_of_still h
  exact ⟨hdefault, htables, by rw [hbag], by rw [hbag]; exact ⟨rfl, rfl⟩, fun _ _ _ => by rw [hvars]⟩

theorem stands_bagFrame : Within Stands Stands bagFrame :=
  BagActs.bagFrame {
    chains := chains_stands
    still := .of_still
    selects := fun h => ⟨rfl, rfl, h.kept.1, h.kept.2, fun _ _ _ => rfl⟩
    weapon := fun i v hi _ => ⟨rfl, rfl, rfl, ⟨rfl, rfl⟩, fun j hs hg => by
      have hij : i ≠ j := fun h => hi.elim (fun hi => hs (h ▸ hi)) fun hi => hg (h ▸ hi)
      exact Vector.getElem_set_ne i.isLt j.isLt fun h => hij (Fin.ext h)⟩
    closes := fun _ => ⟨rfl, rfl, rfl, ⟨rfl, rfl⟩, fun _ _ _ => rfl⟩ }

/-! ### All frames -/

theorem runFrame_inStep (hg : InStep g) : Leads runFrame g (fun _ => InStep) InStep := by
  have hcounted : InStep g.counted := hg
  unfold Leads
  rw [runFrame_eq]
  cases hmode : g.mode with
  | game =>
    have hsilent : Silent g.counted := hcounted.silent fun h => nomatch hmode.symm.trans h
    exact (silent_acts.gameFrame silent_ends silent_beginDialogue g.counted).mono (fun _ _ h => h hsilent) fun _ h => h hsilent
  | bag =>
    have hsilent : Silent g.counted := hcounted.silent fun h => nomatch hmode.symm.trans h
    have hC := silent_acts.chains
    have hframe : Within (fun g g' => Silent g → Silent g') (fun g g' => Silent g → Silent g')
        (do bagFrame; endFrame; return true : M Bool) :=
      hC.bind silent_acts.bagFrame fun _ => hC.bind silent_acts.endFrame fun _ => hC.value _
    exact (hframe g.counted).mono (fun _ _ h => (h hsilent).inStep) fun _ h => (h hsilent).inStep
  | dialogue =>
    refine (talkFrame_leads g.counted).mono (fun _ g' h => ?_) fun _ h => hcounted.congr (stance_core (core_of_still h))
    obtain ⟨-, h⟩ | h := h
    · exact hcounted.congr (stance_core (core_of_still h))
    · have hstance : g'.stance = (.game, false) := stance_core (core_of_still h)
      rw [InStep, hstance]
      exact ⟨fun h => (nomatch h), fun h => (nomatch h)⟩

/-- Whatever a game is asked to do, it stays in step. -/
theorem inStep_perform (c : Call) :
    Within (fun g g' : Game => InStep g → InStep g') (fun g g' => InStep g → InStep g') c.perform := by
  have leaves {α : Type} {m : M α} (hm : Leaves stance m) :
      Within (fun g g' => InStep g → InStep g') (fun g g' => InStep g → InStep g') m := fun g =>
    (hm g).mono (fun _ _ h hg => hg.congr h) fun _ h hg => hg.congr h
  have idle : IdleActs (fun g g' : Game => InStep g → InStep g') fun g g' => InStep g → InStep g' := {
    chains := Chains.keeps fun _ => id
    moves := fun h hg => hg.congr (stance_core (Prod.ext_iff.mp h).2)
    shows := fun _ _ => id }
  have frame : Within (fun g g' : Game => InStep g → InStep g') (fun g g' => InStep g → InStep g') runFrame := by
    intro g
    by_cases hg : InStep g
    · exact (runFrame_inStep hg).mono (fun _ _ h _ => h) fun _ h _ => h
    · exact (within_anyhow runFrame g).mono (fun _ _ _ h => absurd h hg) fun _ _ h => absurd h hg
  refine idle.perform (fun anim => leaves (unloaded_stance.unstocked.dropBehind anim)) frame (fun g _ => ?_) fun name _ => ?_
  · exact ⟨fun h => (nomatch h), fun h => (nomatch h)⟩
  · exact idle.chains.bind (fun _ => id) fun _ => idle.chains.bind (leaves (unloaded_stance.readScene (fun _ => rfl) name)) fun _ =>
      idle.usePalette

theorem Reachable.inStep (h : Reachable g) : InStep g := by
  induction h with
  | start h =>
    obtain ⟨_, -, _, rfl⟩ := eq_begun h
    exact ⟨fun h => (nomatch h), fun h => (nomatch h)⟩
  | @call g _ c ih => exact ((inStep_perform c g).mono (fun _ _ h => h ih) fun _ h => h ih).after
  | outside _ _ _ _ _ _ ih => exact ih

/-- A movie with one object. Its script asks for a dialogue of one speaker with himself. -/
def talkingMovie : ByteArray := Bytes.ofList
  [0x4D, 0x35, 6, 0, 0x61, 0x2E, 0x73, 0x70, 0x72, 0, 1, 0, 0, 0, 0, 3, 0, 2, 0, 0x4F, 0, 0xB8, 0x0B, 3, 0, 0, 0,
    4, 0, 21, 0, 21, 0, 0, 0, 0xA8, 0x61, 1, 0, 0, 2, 0, 0x64, 0, 2, 0, 0x6A, 0, 2, 0, 0x6A, 0]

/-- The pictures of a speaker who has none. -/
def emptyHead : ByteArray := Bytes.ofList [0x53, 0x35, 0, 0]

/-- The files of a demo with that movie. -/
def talkingFiles : DataDir where
  root := "DATA"
  files := [⟨"SCN/-01.SCN", plainBytes "Movies\nt.mov\nMoviesEnd"⟩, ⟨"SCN/t.mov", talkingMovie⟩, ⟨"SCN/a.spr", pointBank⟩,
    ⟨"SCN/d", ByteArray.empty⟩, ⟨"SCN/j", emptyHead⟩, ⟨"wgp/frame.spr", ByteArray.empty⟩, ⟨"wgp/kiss.spr", emptyHead⟩,
    ⟨"bermuda.wgp", demoWindow⟩, ⟨"bermuda.spr", demoSprites⟩]

noncomputable def talkingDemo : Game := demoGame talkingFiles "-01.SCN"

/-- The player presses a key of the bag. -/
def pressTab (g : Game) : Game := { g with stage := { g.stage with input := { g.stage.input with tab := true } } }

/-- The player breaks off a dialogue. -/
def pressEscape (g : Game) : Game := { g with stage := { g.stage with input := { g.stage.input with escape := true } } }

/-- The bag has been opened in the first frame. -/
noncomputable def bagDemo : Game := pressTab (after runFrame (pressTab talkingDemo))

/-- The script has run in the second frame. -/
noncomputable def dialogueDemo : Game := pressEscape (after runFrame (after runFrame talkingDemo))

theorem passes_talkingDemo :
    (passes runFrame (fun g => decide (g.mode = .bag) && passes runFrame (fun g => decide (g.mode = .game)) (pressTab g))
        (pressTab talkingDemo) &&
      passes runFrame (fun g => passes runFrame (fun g => decide (g.mode = .dialogue) &&
        passes runFrame (fun g => decide (g.mode = .game)) (pressEscape g)) g) talkingDemo) = true := by
  decide +kernel

theorem reachable_talkingDemo : Reachable talkingDemo :=
  .start (startDemo_eq (by decide : firstScenes.find? talkingFiles.contains = some "-01.SCN") rfl rfl)

theorem Reachable.pressTab (hg : Reachable g) : Reachable (pressTab g) := hg.outside g.data g.saves _ g.random g.vars

theorem Reachable.pressEscape (hg : Reachable g) : Reachable (pressEscape g) := hg.outside g.data g.saves _ g.random g.vars

theorem reachable_bagDemo : Reachable bagDemo := reachable_talkingDemo.pressTab.frame.pressTab

theorem reachable_dialogueDemo : Reachable dialogueDemo := reachable_talkingDemo.frame.frame.pressEscape

end Adventure.Game
