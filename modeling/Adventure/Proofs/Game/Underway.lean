import Adventure.Proofs.Game.Bounds
import Adventure.Proofs.Game.Depth
import Adventure.Proofs.Game.Frozen

/-! The games that calls pass through on their way. What is looked up while scripts run, while a scene or a dialogue is
drawn and while a scene is loaded is looked up in such a game, so that it is there: boxes and objects that are in use,
objects in the order of their depth, and the rows of the frame behind a dialogue. -/

namespace Adventure.Game

/-- The steps between which scripts, frames and scenes look something up. -/
inductive Part : {α : Type} → M α → Prop
  /-- Whatever leaves the tables, the bag, the frame and the background as they are. -/
  | aside {f : Game → Game} (htables : ∀ g, (f g).tables = g.tables) (hbag : ∀ g, (f g).bag = g.bag)
    (hframe : ∀ g, (f g).frame = g.frame) (hbackground : ∀ g, (f g).background = g.background) : Part (modify f)
  | condition (current : Nat) (code : Int16) (s : Script) : Part ((Interpreter.checkCondition current code).run s)
  | operator (current statement : Nat) (op : Operator) (s : Script) : Part ((op.exec current statement).run s)
  | startObject (i : Nat) : Part (startObject i)
  | advanceObject (i : Nat) : Part (advanceObject i)
  | removeObjects : Part (onTables removeObjects)
  | drawObject (m : Moment) (slot : Nat) : Part (drawObject m slot)
  | drawBox (b : SceneBox) : Part (drawBox b)
  | drawInterface : Part drawInterface
  | showFrame : Part showFrame
  | finishStory : Part finishStory
  | bagFrame : Part bagFrame
  | drawDialogueScene : Part drawDialogueScene
  | eraseObject (slot : Nat) : Part (eraseObject slot)
  | dialogueFrame : Part dialogueFrame
  | beginDialogue : Part beginDialogue
  | endDialogue : Part endDialogue
  | addSounds (names : List String) : Part (withTables (SceneTables.addSounds names))
  | addBox (b : MovieBox) : Part (withTables (SceneTables.addBox b))
  | addObject (motionInit : Int16) (o : MovieObject) : Part (withTables (SceneTables.addObject motionInit o))
  | addBank (anim : Nat) (bank : SpriteBank) : Part (withTables (SceneTables.addBank anim bank))
  | startMovies : Part (onTables SceneTables.startMovies)
  | loads (loaded : Loaded) : Part (onTables fun t => { t with loaded })
  | clearBoxes : Part (onTables SceneTables.clearBoxes)
  | loadBackground (name : String) : Part (loadBackground name)
  | loadMovie (name : String) : Part (loadMovie name)
  | dropBehind (anim : Int) : Part (dropBehind anim)
  | readScene (name : String) : Part (readScene name)
  | selectFirst : Part (onBag selectFirst)
  | requestSlot (slot : Nat) : Part (requestSlot slot)
  | restoreSlot (slot : Nat) : Part (restoreSlot slot)
  | saveSlot (slot : Nat) : Part (saveSlot slot)
  | restart : Part restart

/-- The games that calls pass through: those that can come to be, and those between the parts of a call and
between the lines of a description. A part may have failed. -/
inductive Underway : Game → Prop
  | reached {g : Game} (h : Reachable g) : Underway g
  | part {g : Game} (hg : Underway g) {α : Type} {m : M α} (hm : Part m) : Underway (after m g)
  | line {g : Game} (hg : Underway g) {text : List Char} {s : Description Game} (hs : Description.Reached (ε := GameError) text g s) :
    Underway s.host

variable {g : Game}

theorem Part.bounded {α : Type} {m : M α} (hm : Part m) : Maintains (Bounded maxAnimations) m := by
  have hB := bounded_acts
  have script {β : Type} {m : Interpreter β} (hm : Interpreter.Acts m) (s : Script) : Maintains (Bounded maxAnimations) (m.run s) :=
    hB.of_acts fun g => (hm g s).mono (fun _ _ h => h.1) fun _ h => h
  cases hm with
  | aside htables hbag hframe hbackground =>
    intro g h
    refine ⟨?_, ?_, ?_, ?_⟩
    · exact (htables g).symm ▸ h.tables
    · exact (hbag g).symm ▸ h.bag
    · rw [hframe, hbackground]
      exact h.frame
    · rw [hbackground]
      exact h.background
  | condition current code s => exact script (Interpreter.Acts.checkCondition current code) s
  | operator current statement op s => exact script (Operator.acts_exec current statement op) s
  | startObject i => exact hB.startObject i
  | advanceObject i => exact hB.advanceObject i
  | removeObjects => exact hB.removeObjects
  | drawObject m slot => exact hB.showActs.drawObject m slot
  | drawBox b => exact hB.showActs.drawBox b
  | drawInterface => exact hB.showActs.drawInterface
  | showFrame => exact hB.showActs.showFrame
  | finishStory => exact hB.finishStory
  | bagFrame => exact hB.bagFrame
  | drawDialogueScene => exact hB.of_still draw_still.drawDialogueScene
  | eraseObject slot => exact hB.of_still (draw_still.eraseObject slot)
  | dialogueFrame => exact hB.dialogueFrame
  | beginDialogue => exact bounded_beginDialogue _
  | endDialogue => exact hB.endDialogue
  | addSounds names => exact Bounded.maintains_withTables (SceneTables.bounded_addSounds _ names)
  | addBox b => exact Bounded.maintains_withTables (SceneTables.bounded_addBox _ b)
  | addObject motionInit o => exact Bounded.maintains_withTables (SceneTables.bounded_addObject _ motionInit o)
  | addBank anim bank => exact Bounded.maintains_withTables (SceneTables.bounded_addBank _ anim bank)
  | startMovies => exact Bounded.maintains_onTables SceneTables.Bounded.startMovies
  | loads loaded => exact Bounded.maintains_onTables fun h => h.beside (h.stock.loads loaded) rfl rfl
  | clearBoxes => exact Bounded.maintains_onTables SceneTables.Bounded.clearBoxes
  | loadBackground name => exact bounded_loadBackground _ name
  | loadMovie name => exact bounded_loadMovie name
  | dropBehind anim => exact bounded_dropBehind _ anim
  | readScene name => exact bounded_readScene name
  | selectFirst => exact fun g => hB.bag .selectsFirst
  | requestSlot slot => exact hB.requestSlot slot
  | restoreSlot slot => exact hB.restoreSlot slot
  | saveSlot slot => exact hB.saveSlot slot
  | restart => exact hB.restart

theorem Reachable.bounded (hg : Reachable g) : g.Bounded maxAnimations := by
  induction hg with
  | start h =>
    obtain ⟨_, -, _, rfl⟩ := eq_begun h
    exact ⟨SceneTables.bounded_empty _, Nat.zero_le _, rfl, Surface.full_screen⟩
  | @call g _ c ih =>
    have hcall : Maintains (Bounded maxAnimations) c.perform :=
      bounded_acts.perform (bounded_beginDialogue _) (fun _ _ _ h => ⟨h.tables, h.bag, h.frame, h.background⟩)
        fun name _ => bounded_readScene name
    exact ((hcall g).mono (fun _ _ h => h ih) fun _ h => h ih).after
  | outside _ _ _ _ _ _ ih => exact ⟨ih.tables, ih.bag, ih.frame, ih.background⟩

theorem Underway.bounded (hg : Underway g) : g.Bounded maxAnimations := by
  induction hg with
  | reached h => exact h.bounded
  | @part g _ _ m hm ih => exact ((hm.bounded g).mono (fun _ _ h => h ih) fun _ h => h ih).after
  | line _ hs ih => exact hs.host bounded_hostActs ⟨ih.tables, ih.bag, ih.frame, ih.background⟩

/-! ### What is looked up -/

/-- All tables of a game are within their bounds, and what is looked up in them by number is there. -/
structure InRange (g : Game) : Prop where
  boxes : ∀ group : Fin 20, g.tables.boxCount group ≤ 10
  objects : g.tables.objectsCount ≤ 50
  movies : g.tables.animations.size ≤ 50 ∧ g.tables.motions.size ≤ 300 ∧ g.tables.frames.size ≤ 3000 ∧ g.tables.sounds.size ≤ 80
  bag : g.bag.entries.length ≤ 20
  exits : g.tables.nextScenes.length ≤ 20
  statuses : g.tables.statuses.toList.length = 200
  sizes : g.frame.w = g.background.w ∧ g.frame.h = g.background.h ∧ g.frame.pitch = g.background.pitch
  surfaces : ∀ s ∈ [g.background, g.frame], s.bits.size = s.pitch * (s.h + 1) ∧ s.w + 1 ≤ s.pitch
  /-- The boxes in use are as many as are counted. -/
  groupBoxes : ∀ group : Fin 20, (g.tables.groupBoxes group).length = g.tables.boxCount group
  /-- The objects in use are as many as are counted. -/
  activeObjects : g.tables.activeObjects.length = g.tables.objectsCount
  /-- Each number in the order of depth is that of an object in use. -/
  sorted : ∀ i ∈ g.tables.sortedSlots, g.tables.activeObjects[i]? = some (g.object i)
  /-- The rows behind a dialogue start within the frame, if it is large enough. -/
  area : Conversation.area.y + Conversation.area.h ≤ g.frame.height ∧ Conversation.area.x + Conversation.area.w ≤ g.frame.width →
    (g.frame.height - Conversation.area.y - Conversation.area.h).toNat * g.frame.pitch + Conversation.area.x.toNat ≤ g.frame.bits.size

/-- Where the area of a dialogue fits, its last row starts within the surface. -/
theorem area_le {f : Surface} (hf : f.shape.Full)
    (ha : Conversation.area.y + Conversation.area.h ≤ f.height ∧ Conversation.area.x + Conversation.area.w ≤ f.width) :
    (f.height - Conversation.area.y - Conversation.area.h).toNat * f.pitch + Conversation.area.x.toNat ≤ f.bits.size := by
  obtain ⟨hy, hx⟩ : (165 : Int) + 150 ≤ f.height ∧ (33 : Int) + 574 ≤ f.width := ha
  have hrows : (f.height - Conversation.area.y - Conversation.area.h).toNat ≤ f.h := by
    change (f.height - (165 : Int) - 150).toNat ≤ f.h
    unfold Surface.height at hy ⊢
    omega
  have hcolumns : Conversation.area.x.toNat ≤ f.pitch := by
    change 33 ≤ f.pitch
    have hpitch : f.w + 1 ≤ f.pitch := hf.pitch
    unfold Surface.width at hx
    omega
  have hsize : f.bits.size = f.pitch * (f.h + 1) := hf.size
  calc (f.height - Conversation.area.y - Conversation.area.h).toNat * f.pitch + Conversation.area.x.toNat
      ≤ f.h * f.pitch + f.pitch := Nat.add_le_add (Nat.mul_le_mul_right _ hrows) hcolumns
    _ = f.bits.size := by rw [hsize, Nat.mul_succ, Nat.mul_comm]

theorem length_groupBoxes {t : SceneTables} {group : Nat} (hgroup : group < numBoxGroups) (h : t.boxCount group ≤ boxesPerGroup) :
    (t.groupBoxes group).length = t.boxCount group := by
  simp only [SceneTables.groupBoxes, Vector.getElem?_eq_getElem hgroup, List.length_take, Vector.length_toList]
  exact Nat.min_eq_left h

/-- An object in use is in the slot of its number. -/
theorem getElem?_activeObjects {t : SceneTables} {i : Nat} (hi : i < t.objectsCount) (h : t.objectsCount ≤ maxObjects) :
    t.activeObjects[i]? = some (t.object i) := by
  have hslot : i < maxObjects := Nat.lt_of_lt_of_le hi h
  rw [SceneTables.activeObjects, List.getElem?_take_of_lt hi, Vector.getElem?_toList, SceneTables.object,
    Vector.getElem?_eq_getElem hslot, Option.getD_some]

theorem Bounded.inRange (h : g.Bounded maxAnimations) : InRange g where
  boxes group := h.tables.boxes group
  objects := h.tables.stock.objects
  movies := ⟨h.tables.stock.animations, h.tables.stock.motions, h.tables.stock.frames, h.tables.stock.sounds⟩
  bag := h.bag
  exits := h.tables.exits
  statuses := g.tables.statuses.length_toList
  sizes := ⟨congrArg Surface.Shape.w h.frame, congrArg Surface.Shape.h h.frame, congrArg Surface.Shape.pitch h.frame⟩
  surfaces s hs := by
    have hfull : s.shape.Full := by
      simp only [List.mem_cons, List.not_mem_nil, or_false] at hs
      obtain rfl | rfl := hs
      · exact h.background
      · exact h.frame ▸ h.background
    exact ⟨hfull.size, hfull.pitch⟩
  groupBoxes group := length_groupBoxes group.isLt (h.tables.boxes group)
  activeObjects := length_activeObjects h.tables.stock.objects
  sorted i hi := by
    have hcount : i < g.tables.objectsCount := List.mem_range.mp (g.tables.sortedSlots_perm.mem_iff.mp hi)
    exact getElem?_activeObjects hcount h.tables.stock.objects
  area := area_le (h.frame ▸ h.background)

/-- In every game that can come to be, and in those that calls pass through, no table has more entries than it may have,
and what scripts, frames and scenes look up by number is there. -/
theorem Underway.lookups_inRange (hg : Underway g) : InRange g := hg.bounded.inRange

/-- The dialogue of a demo is drawn. -/
theorem Underway.lookups_inRange_dialogueDemo :
    Underway (after drawDialogueScene dialogueDemo) ∧ InRange (after drawDialogueScene dialogueDemo) := by
  have hdrawn : Underway (after drawDialogueScene dialogueDemo) := .part (.reached reachable_dialogueDemo) .drawDialogueScene
  exact ⟨hdrawn, hdrawn.lookups_inRange⟩

end Adventure.Game
