import Adventure.Proofs.Game.Dialogues
import Adventure.Proofs.Game.Slots
import Adventure.Proofs.Script.Acts

/-! The steps of a frame, one behind the other. A scene is switched to, the player's keys are taken, scripts act,
objects start and are drawn, and what scripts asked for is followed. What each of these things keeps, frames keep.
The bag, dialogues, cutscenes and the titles leave the ground of a game as it is. -/

namespace Adventure.Game

theorem ground_setMusic (name : Option String) (g : Game) : (setMusic name g).ground = g.ground := by
  cases name with
  | none => rfl
  | some name =>
    simp only [setMusic]
    split <;> rfl

theorem hull_playKeys (i : Input) (g : Game) : (playKeys { g with keys := setKeys i g.keys }).hull = g.hull := by
  unfold playKeys
  split
  · simp only [hull, ground, core]
  · split <;> simp only [hull, ground, core]

namespace Stays

/-! ### The bag and dialogues -/

theorem bagFrame : Stays bagFrame :=
  BagActs.bagFrame {
    chains := chains_ground
    still h := congrArg (fun s : (Ground × Core) × SceneTables × Vars => s.1.1) h
    selects _ := rfl
    weapon _ _ _ := fun _ => rfl
    closes _ := rfl }

theorem dialogueFrame : Stays dialogueFrame := by
  have ground {g g' : Game} (h : g'.still = g.still) : g'.ground = g.ground :=
    congrArg (fun s : (Ground × Core) × SceneTables × Vars => s.1.1) h
  refine fun g => (dialogueFrame_leads g).mono (fun _ g' h => ?_) fun _ h => ground h
  obtain h | h := h
  · exact ground h
  · exact congrArg (fun s : (Ground × Core) × SceneTables × Vars => s.1.1) h

theorem endDialogue : Stays endDialogue := fun g =>
  (endDialogue_leads g).mono (fun _ _ h => congrArg (fun s : (Ground × Core) × SceneTables × Vars => s.1.1) h) fun _ h => h.elim

theorem beginDialogue : Stays beginDialogue := by
  refine fun g => (beginDialogue_leads g).mono (fun _ g' h => ?_) fun _ h => ?_
  · obtain ⟨_, h⟩ := h
    exact congrArg (fun s : (Ground × Core) × SceneTables × Vars => s.1.1) h
  · exact congrArg (fun s : (Ground × Core) × SceneTables × Vars => s.1.1) h

/-! ### Scenes -/

theorem addBagEntry (name file : String) : Stays (addBagEntry name file) :=
  look fun _ => ite ((fault _).bind fun _ => (readFile _).bind fun _ => onBag _) ((readFile _).bind fun _ => onBag _)

theorem addNextScene (s : NextScene) : Stays (addNextScene s) :=
  look fun _ => ite ((fault _).bind fun _ => onTables fun _ => rfl) (onTables fun _ => rfl)

end Stays

/-! ### Steps that leave ground and core as they are -/

namespace IdleActs

variable {K E : Game → Game → Prop} (hK : IdleActs K E)
include hK

theorem usePalette : Within K E usePalette := by
  refine hK.change fun g => ?_
  split <;> rfl

theorem loadKeys (name : String) : Within K E (loadKeys name) := hK.change fun g => by simp only [hull, ground, core]

theorem endFrame : Within K E endFrame := hK.change fun g => by simp only [hull, ground, core]

theorem takeClicks : Within K E takeClicks := hK.change fun _ => rfl

theorem showTitle (name : String) : Within K E (showTitle name) := by
  have hC := hK.chains
  refine hC.look fun g => ?_
  split
  · exact hC.value _
  · have rest : Within K E (do
        if (← get).stage.quit then return true
        onInput fun i => { i with enter := false }
        return false : M Bool) :=
      hC.look fun _ => .ite (hC.value _) (hC.bind (hK.showActs.onInput _) fun _ => hC.value _)
    refine hC.bind (hC.lift _) fun _ => ?_
    refine hC.bind (m := onStage _) ?_ ?_
    · exact hK.showActs.onStage _
    · exact fun _ => rest

theorem showTitles (l : List String) : Within K E (showTitles l) := by
  have hC := hK.chains
  induction l with
  | nil => exact hC.value _
  | cons name l ih => exact hC.bind (hK.showTitle name) fun _ => .ite ih (hC.value _)

theorem playIntro : Within K E playIntro :=
  have hC := hK.chains
  have film (path : String) : Within K E (discard (playVideo path)) := hC.bind (hK.showActs.playVideo path) fun _ => hC.value _
  have ends : Within K E (modify fun g => { g with lastFrame := g.stage.now } : M PUnit) := hK.change fun _ => rfl
  hC.look fun _ => .ite (hC.bind (hK.showTitles _) fun _ => ends) (hC.bind (film _) fun _ => hC.bind (film _) fun _ => ends)

end IdleActs

/-! ### Objects and the end of a frame -/

/-- The part of a frame that comes once the player's keys are taken. -/
def frameBehindKeys : M Unit := do
  takeClicks
  objectsFrame
  if !(← get).switching then endFrame
  if (← get).talking then
    modify fun g => { g with talking := false }
    beginDialogue

theorem playFrame_eq : playFrame = takeKeys >>= fun _ => frameBehindKeys := rfl

/-- Where the steps of that part lead: to what stands in the relation `K` to where they started if they succeed,
and in the relation `E` if they fail. Besides what leaves ground and core as they are, scripts change the bag, keep
boxes and ask for scenes, and movies are dropped at the end of the story. -/
structure FrameActs (K E : Game → Game → Prop) : Prop extends IdleActs K E where
  bag : ∀ {g : Game} {b : Bag}, g.bag.Change g.HasObject b → K g { g with bag := b }
  asks : ∀ {g : Game} {s : NextScene}, s ∈ g.tables.nextScenes → K g { g with requested := some s }
  forgets : ∀ g, K g { g with requested := none }
  keepsBoxes : ∀ (keep : Bool) (g : Game),
    K g { g with tables := SceneTables.ownGroups.foldl (Operator.keepBoxes keep) g.tables }
  follows : ∀ {g : Game} {s : NextScene}, g.requested = some s → K g { g with nextFile := s.name, switching := true }
  finishes : ∀ g, K g { g with nextFile := "END.SCN", switching := true }
  dropBehind : ∀ anim, Within K E (dropBehind anim)

namespace FrameActs

variable {K E : Game → Game → Prop}

/-- The steps lead there when everything does that leaves the ground as it is. -/
theorem of_ground (hC : Chains K E) (ground : ∀ {g g' : Game}, g'.ground = g.ground → K g g')
    (switchTo : ∀ g name, K g { g with nextFile := name, switching := true })
    (dropBehind : ∀ anim, Within K E (Game.dropBehind anim)) : FrameActs K E where
  chains := hC
  moves h := ground (Prod.ext_iff.mp h).1
  shows _ _ := ground rfl
  bag _ := ground rfl
  asks _ := ground rfl
  forgets _ := ground rfl
  keepsBoxes keep _ := ground (Act.keepsBoxes keep).ground
  follows _ := switchTo _ _
  finishes _ := switchTo _ _
  dropBehind := dropBehind

variable (hK : FrameActs K E) {α : Type} {m : M α}
include hK

theorem act {g g' : Game} (h : Act g g') : K g g' := by
  cases h with
  | beside h => exact hK.moves (Prod.ext_iff.mp h).1
  | object i h => exact hK.moves (hull_onObject h.title)
  | bag h => exact hK.bag h
  | asks h => exact hK.asks h
  | keepsBoxes keep => exact hK.keepsBoxes keep _

theorem acts {g g' : Game} (h : Acts g g') : K g g' := by
  induction h with
  | refl => exact hK.chains.refl _
  | tail _ h ih => exact hK.chains.trans ih (hK.act h)

theorem of_acts (hm : Within Acts Acts m) : Within K E m := fun g =>
  (hm g).mono (fun _ _ h => hK.acts h) fun _ h => hK.chains.fails (hK.acts h) (hK.chains.stop _)

theorem runScripts (l : List Nat) : Within K E (runScripts l) := by
  have hC := hK.chains
  induction l with
  | nil => exact hC.value _
  | cons i l ih =>
    exact hC.look fun _ => .ite (hC.bind (hC.lift _) fun _ => hC.bind (hK.of_acts (acts_runScript _ _)) fun _ => ih) ih

theorem followRequest : Within K E
    (modify fun g => Game.followRequest { g with ending := { g.ending with fresh := false } } : M Unit) := by
  intro g
  have hending : K g { g with ending := { g.ending with fresh := false } } := hK.moves rfl
  change K g (Game.followRequest { g with ending := { g.ending with fresh := false } })
  unfold Game.followRequest
  split
  · rename_i s hs
    exact hK.chains.trans hending (hK.follows hs)
  · exact hending

theorem sceneFrame : Within K E sceneFrame :=
  have hC := hK.chains
  hC.look fun _ => hC.bind (hK.change fun _ => rfl) fun _ => hC.bind (hK.runScripts _) fun _ =>
    hC.bind hK.followRequest fun _ => hC.bind (hK.startObjects _) fun _ =>
      hC.bind hK.checkOver fun _ => hC.look fun _ => .ite hK.drawObjects (hC.value _)

theorem finishStory : Within K E finishStory :=
  have hC := hK.chains
  have film : Within K E (discard (playVideo "DATA/FINAL.AVI")) :=
    hC.bind (hK.showActs.playVideo _) fun _ => hC.value _
  hC.look fun _ => .ite (hC.bind hK.showActs.stopMusic fun _ => hC.bind (hK.dropBehind _) fun _ =>
    hC.bind (hK.setVar _ _) fun _ => hC.bind film fun _ => hK.finishes) (hC.value _)

theorem objectsFrame : Within K E objectsFrame := by
  have hC := hK.chains
  have story : Within K E (do
      if (← get).tables.loaded = .movies then Game.sceneFrame
      Game.finishStory) :=
    hC.look fun _ => .ite (hC.bind hK.sceneFrame fun _ => hK.finishStory) hK.finishStory
  exact hC.bind hK.forgets fun _ => hC.look fun _ => .ite (hC.bind hK.clearKeys fun _ => story) story

/-- What a dialogue that is asked for comes to, the frame comes to. -/
theorem frameBehindKeys {K' E' : Game → Game → Prop} (hE : Ends K E K' E') (hbegin : Within K' E' beginDialogue) :
    Within K' E' frameBehindKeys := by
  have hC := hK.chains
  have talk : Within K' E' (do
      if (← get).talking then
        modify fun g => { g with talking := false }
        beginDialogue : M Unit) :=
    hE.bind hC.get fun _ => .ite (hE.bind (hK.change fun _ => rfl) fun _ => hbegin) (hE.within (hC.value _))
  exact hE.bind hK.takeClicks fun _ => hE.bind hK.objectsFrame fun _ => hE.bind hC.get fun _ =>
    .ite (hE.bind hK.endFrame fun _ => talk) talk

end FrameActs

/-! ### Whole frames -/

/-- Where the steps of whole frames lead, too: scenes are read and movies loaded, games are saved, loaded and started
anew, and the player turns to the bag and back, while dialogues go on and end. -/
structure GameActs (K E : Game → Game → Prop) : Prop extends FrameActs K E where
  core : ∀ {g g' : Game}, g'.core = g.core → K g g'
  enters : ∀ g, K g { g with sceneFile := g.nextFile }
  readScene : ∀ name, Text.endsWithName name "SCN" → Within K E (readScene name)
  loadMovie : ∀ name, Within K E (loadMovie name)
  asksSaved : ∀ {g : Game} {slot : Nat} {d : ByteArray} {h : SaveHeader}, g.saves.readSlot? slot = some d →
    SaveState.readHeader d = .ok h → K g { g with nextFile := h.sceneName }
  restores : ∀ {g : Game} {slot : Nat} {d : ByteArray} {s : SaveState}, g.saves.readSlot? slot = some d →
    SaveState.read d true = .ok s → K g (restore s g)
  saveSlot : ∀ slot, Within K E (saveSlot slot)
  restarts : ∀ g, K g (restarted g)
  mode : ∀ (g : Game) {mode : Mode}, mode ≠ .dialogue → K g { g with mode }
  ends : ∀ g, K g { g with conversation := none }

theorem core_headed (h : SaveHeader) (g : Game) : (headed h g).core = ({ g with nextFile := h.sceneName } : Game).core := by
  simp only [headed, silenced, core]

namespace GameActs

variable {K E K' E' : Game → Game → Prop} (hK : GameActs K E)
include hK

/-- A step that leaves the core as it is. -/
theorem aside {f : Game → Game} (hf : ∀ g, (f g).core = g.core) : Within K E (modify f : M PUnit) := fun g => hK.core (hf g)

theorem still {g g' : Game} (h : g'.still = g.still) : K g g' :=
  hK.core (congrArg (fun s : (Ground × Core) × SceneTables × Vars => s.1.2) h)

theorem of_still {α : Type} {m : M α} (hm : Leaves Game.still m) : Within K E m := fun g =>
  (hm g).mono (fun _ _ h => hK.still h) fun _ h => hK.chains.fails (hK.still h) (hK.chains.stop _)

theorem restart : Within K E restart := hK.restarts

/-! ### Saved games -/

theorem headed {g : Game} {slot : Nat} {d : ByteArray} {h : SaveHeader} (hslot : g.saves.readSlot? slot = some d)
    (hd : SaveState.readHeader d = .ok h) : K g (headed h g) :=
  hK.chains.trans (hK.asksSaved hslot hd) (hK.core (core_headed h g))

theorem requestSlot (slot : Nat) : Within K E (requestSlot slot) := by
  have silenced (g : Game) : K g g.silenced := hK.core rfl
  refine fun g => (requestSlot_leads slot g).mono (fun _ g' h => ?_) fun g' h => ?_
  · obtain ⟨-, rfl⟩ | ⟨d, h, hslot, hd, rfl⟩ := h
    · exact silenced g
    · exact hK.chains.trans (hK.headed hslot hd) (hK.core (by simp only [Game.core]))
  · obtain ⟨d, e, -, -, rfl⟩ := h
    exact hK.chains.fails (silenced g) (hK.chains.stop _)

theorem restoreSlot (slot : Nat) : Within K E (restoreSlot slot) := by
  have silenced (g : Game) : K g g.silenced := hK.core rfl
  refine fun g => (restoreSlot_leads slot g).mono (fun _ g' h => ?_) fun g' h => ?_
  · obtain ⟨-, rfl⟩ | ⟨d, h, s, hslot, hd, hs, rfl⟩ := h
    · exact silenced g
    · have hsaves : (Game.headed h g).saves = g.saves := congrArg Core.saves (core_headed h g)
      have hslot' : (Game.headed h g).saves.readSlot? slot = some d := by rwa [hsaves]
      exact hK.chains.trans (hK.headed hslot hd) (hK.restores hslot' hs)
  · obtain ⟨d, e, hslot, ⟨-, rfl⟩ | ⟨h, hd, -, rfl⟩⟩ := h
    · exact hK.chains.fails (silenced g) (hK.chains.stop _)
    · exact hK.chains.fails (hK.headed hslot hd) (hK.chains.stop _)

/-! ### Switching scenes -/

/-- The file that is switched to is entered. -/
theorem takeFile_leads (g : Game) : Leads (takeFile g.nextFile) g (fun _ => K g) (E g) := by
  have hC := hK.chains
  have enter {name : String} (hname : Text.endsWithName name "SCN") :
      Within K E (do Game.readScene name; return .entered : M Switch) :=
    hC.bind (hK.readScene name hname) fun _ => hC.value _
  have keys (name : String) : Within K E (do loadKeys name; return .entered : M Switch) :=
    hC.bind (hK.loadKeys name) fun _ => hC.value _
  refine .ite (fun hscene => ?scene) fun _ => .ite (fun _ => ?saved) fun _ => ?movie
  case scene =>
    refine Leads.bind ((draw_still.stopSound g).mono (fun _ g₁ h₁ => ?_) fun _ h => hC.fails (hK.still h) (hC.stop _))
    have hnext : g₁.nextFile = g.nextFile := congrArg (fun s : (Ground × Core) × SceneTables × Vars => s.1.2.nextFile) h₁
    have hentered : K g { g₁ with sceneFile := g.nextFile } := hC.trans (hK.still h₁) (hnext ▸ hK.enters g₁)
    refine .ite (fun _ => hK.still h₁) fun _ => Leads.bind (m := modify _) ?_
    exact (enter hscene _).mono (fun _ _ => hC.trans hentered) fun _ => hC.fails hentered
  case saved =>
    have restarted : Within K E (do Game.restart; return .restarted : M Switch) := hC.bind hK.restart fun _ => hC.value _
    exact hC.look (fun _ => .ite restarted (keys _)) g
  case movie => exact hC.bind (hK.loadMovie _) (fun _ => hC.value _) g

theorem finishRestoring : Within K E finishRestoring :=
  have hC := hK.chains
  hC.look fun _ => .ite (hC.bind (hK.aside fun _ => rfl) fun _ => hC.look fun _ => hC.bind (hK.restoreSlot _) fun _ =>
    hC.look fun _ => hC.bind (hK.showActs.playMusic _) fun _ => hK.clearKeys) (hC.value _)

theorem switchScene : Within K E switchScene := by
  have hC := hK.chains
  have enter (s : Switch) : Within K E (do
      onBag selectFirst
      usePalette
      modify fun g => { g with lost := false, firstRests := g.sceneFile.startsWith "FLY" }
      return s : M Switch) :=
    hC.bind (fun _ => hK.bag .selectsFirst) fun _ => hC.bind hK.usePalette fun _ =>
      hC.bind (hK.aside fun _ => rfl) fun _ => hC.value _
  have rest (s : Switch) : Within K E (do
      if s = .entered then
        Game.finishRestoring
        if (← get).tables.objectsCount = 0 then throw .emptyScene
        onBag selectFirst
        Game.usePalette
        modify fun g => { g with lost := false, firstRests := g.sceneFile.startsWith "FLY" }
      return s : M Switch) :=
    .ite (hC.bind hK.finishRestoring fun _ => hC.look fun _ => .ite (hC.bind (hC.fault _) fun _ => enter s) (enter s)) (hC.value _)
  refine hC.bind (hK.aside fun _ => rfl) fun _ g => Leads.look (Leads.bind ?_)
  refine (hK.takeFile_leads g).mono (fun s g₁ h₁ => ?_) fun _ h => h
  exact (rest s g₁).mono (fun _ _ => hC.trans h₁) fun _ => hC.fails h₁

/-! ### The player -/

theorem takeTab (i : Input) : Within K E (takeTab i) :=
  have hC := hK.chains
  .ite (hC.bind (hK.showActs.onInput _) fun _ g => hK.mode g (by decide)) (hC.value _)

theorem takeCtrl (i : Input) : Within K E (takeCtrl i) :=
  have hC := hK.chains
  .ite (hC.bind (hK.showActs.onInput _) fun _ => hK.showActs.onUi _) (hC.value _)

theorem takeLoad (i : Input) : Within K E (takeLoad i) :=
  have hC := hK.chains
  .ite (hC.bind (hK.showActs.onInput _) fun _ => hC.look fun _ => hC.bind (hK.requestSlot _) fun _ =>
    hK.aside fun _ => rfl) (hC.value _)

theorem takeSave (i : Input) : Within K E (takeSave i) :=
  have hC := hK.chains
  .ite (hC.bind (hK.showActs.onInput _) fun _ => hC.look fun _ => hK.saveSlot _) (hC.value _)

theorem takeRestart : Within K E takeRestart :=
  have hC := hK.chains
  hC.look fun _ => .ite (hC.bind (hK.showActs.onInput _) fun _ => hK.restart) (hC.value _)

theorem takeKeys : Within K E takeKeys := by
  have hC := hK.chains
  have rest (i : Input) : Within K E (do Game.takeLoad i; Game.takeSave i; Game.takeRestart : M Unit) :=
    hC.bind (hK.takeLoad i) fun _ => hC.bind (hK.takeSave i) fun _ => hK.takeRestart
  have slots (i : Input) : Within K E (changeSlot i.slotChange) := hK.aside fun _ => rfl
  exact hC.bind hK.input fun i => hC.bind (hK.change (hull_playKeys i)) fun _ => hC.bind (hK.takeTab i) fun _ =>
    hC.bind (hK.takeCtrl i) fun _ => .ite (hC.bind (slots i) fun _ => rest i) (rest i)

/-! ### Frames of the scene -/

theorem playFrame (hE : Ends K E K' E') (hbegin : Within K' E' beginDialogue) : Within K' E' playFrame :=
  hE.bind hK.takeKeys fun _ => hK.frameBehindKeys hE hbegin

theorem gameFrame (hE : Ends K E K' E') (hbegin : Within K' E' beginDialogue) : Within K' E' gameFrame := by
  have hC := hK.chains
  have stops (b : Bool) : Within K' E' (pure b : M Bool) := hE.within (hC.value _)
  have plays : Within K' E' (do Game.playFrame; return true : M Bool) := fun g =>
    Leads.bind ((hK.playFrame hE hbegin g).mono (fun _ _ h => h) fun _ h => h)
  refine hE.bind hC.get fun _ => .ite (hE.bind hK.switchScene fun s => ?_) (hE.bind (hC.value _) fun s => ?_)
  all_goals
    cases s with
    | ended => exact stops _
    | restarted => exact stops _
    | entered => exact plays

/-! ### Frames of the bag and of dialogues -/

theorem bagFrame : Within K E bagFrame :=
  BagActs.bagFrame {
    chains := hK.chains
    still := hK.still
    selects h := hK.bag (.selects h)
    weapon _ _ _ := fun _ => hK.core rfl
    closes g := hK.mode g (by decide) }

theorem dialogueFrame : Within K E dialogueFrame := by
  have hC := hK.chains
  refine fun g => (dialogueFrame_leads g).mono (fun _ g' h => ?_) fun _ h => hC.fails (hK.still h) (hC.stop _)
  obtain h | h := h
  · exact hK.still h
  · exact hC.trans (hK.mode g (by decide)) (hK.still h)

theorem endDialogue : Within K E endDialogue := fun g =>
  (endDialogue_leads g).mono (fun _ _ h => hK.chains.trans (hK.ends g) (hK.still h)) fun _ h => h.elim

theorem runFrame (hbegin : Within K E beginDialogue) : Within K E runFrame := by
  have hC := hK.chains
  have ends : Within K E (do endFrame; return true : M Bool) := hC.bind hK.endFrame fun _ => hC.value _
  refine hC.bind (hK.change fun _ => rfl) fun _ => hC.look fun g => ?_
  split
  · exact hK.gameFrame hC.ends hbegin
  · exact hC.bind hK.bagFrame fun _ => ends
  · exact hC.bind hK.dialogueFrame fun _ => hC.look fun _ => .ite (hC.bind hK.endDialogue fun _ => ends) ends

end GameActs

end Adventure.Game
