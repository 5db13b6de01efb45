import Adventure.Game.Start
import Adventure.Proofs.Picture.Shape
import Adventure.Proofs.Scene.Steps

/-! What a running scene stands on: the files, the tables that movies filled, the scene and
what it started with, and what has been asked of the next frame. Scripts, drawing, the bag and
dialogues leave all of this as it is; only loading, saving and switching change it. Drawing, sounds
and the movement of objects leave more alone: the bag, the boxes, and the size of the frame. -/

namespace Adventure

/-- What movies have brought into the tables. -/
structure Stock where
  animations : Array Animation
  motions : Array Motion
  frames : Array SpriteFrame
  sounds : Array String
  objectsCount : Nat
  loaded : Loaded

namespace SceneTables

def stock (t : SceneTables) : Stock :=
  ⟨t.animations, t.motions, t.frames, t.sounds, t.objectsCount, t.loaded⟩

def titles (t : SceneTables) : Vector (String × String) maxObjects := t.objects.map (·.title)

theorem object_eq_getElem (t : SceneTables) {i : Nat} (hi : i < maxObjects) : t.object i = t.objects[i] := by
  rw [object, Vector.getElem?_eq_getElem hi, Option.getD_some]

theorem getElem_modifyObject (t : SceneTables) (i : Nat) (f : SceneObject → SceneObject) {j : Nat} (hj : j < maxObjects) :
    (t.modifyObject i f).objects[j] = if i = j then f (t.object j) else t.object j := by
  rw [object_eq_getElem t hj]
  simp only [modifyObject, modifySlot, Vector.getElem_mk, Array.getElem_modify, Vector.getElem_toArray]

theorem titles_modifyObject {t : SceneTables} {i : Nat} {f : SceneObject → SceneObject}
    (hf : (f (t.object i)).title = (t.object i).title) : (t.modifyObject i f).titles = t.titles := by
  refine Vector.ext fun j hj => ?_
  rw [titles, titles, Vector.getElem_map, Vector.getElem_map, getElem_modifyObject t i f hj, ← object_eq_getElem t hj]
  split
  · rename_i hij
    rw [← hij]
    exact hf
  · rfl

/-- What each step of a fold leaves as it is, the fold does. -/
theorem same_foldl {α τ : Type} (p : SceneTables → τ) {f : SceneTables → α → SceneTables} (l : List α) (t : SceneTables)
    (hf : ∀ t a, p (f t a) = p t) : p (l.foldl f t) = p t := by
  induction l generalizing t with
  | nil => rfl
  | cons a l ih => exact (ih (f t a)).trans (hf t a)

end SceneTables

namespace SceneObject

theorem title_placed (o : SceneObject) (frame : Int16) (h : FrameHeader) (state : Int16) : (o.placed frame h state).title = o.title := by
  unfold placed title
  by_cases hstate : o.state = 0 <;> simp [hstate]

end SceneObject

/-- The part of a game that stays while a scene goes on. -/
structure Ground where
  settings : Settings
  data : DataDir
  saves : SaveFolder
  demo : Bool
  firstScene : String
  stock : Stock
  defaultVars : Vars
  nextFile : String
  switching : Bool
  restoring : Bool
  sceneFile : String
  sceneNumber : Int16
  slot : Nat

/-- The part of a game that stays while objects move and while something is drawn, played and noted down. -/
structure Core where
  data : DataDir
  firstScene : String
  saves : SaveFolder
  stock : Stock
  titles : Vector (String × String) maxObjects
  boxCounts : Vector Nat numBoxGroups
  nextScenes : List NextScene
  bag : Bag
  mode : Mode
  /-- A dialogue is held. -/
  talks : Bool
  sceneFile : String
  nextFile : String
  requested : Option NextScene
  background : Surface.Shape
  frame : Surface.Shape

namespace Game

def ground (g : Game) : Ground where
  settings := g.settings
  data := g.data
  saves := g.saves
  demo := g.demo
  firstScene := g.firstScene
  stock := g.tables.stock
  defaultVars := g.defaultVars
  nextFile := g.nextFile
  switching := g.switching
  restoring := g.restoring
  sceneFile := g.sceneFile
  sceneNumber := g.sceneNumber
  slot := g.slot

def core (g : Game) : Core where
  data := g.data
  firstScene := g.firstScene
  saves := g.saves
  stock := g.tables.stock
  titles := g.tables.titles
  boxCounts := g.tables.boxCounts
  nextScenes := g.tables.nextScenes
  bag := g.bag
  mode := g.mode
  talks := g.conversation.isSome
  sceneFile := g.sceneFile
  nextFile := g.nextFile
  requested := g.requested
  background := g.background.shape
  frame := g.frame.shape

/-- The ground of a game and its core. -/
def hull (g : Game) : Ground × Core := (g.ground, g.core)

/-- What stands still while nothing goes on but drawing, sounds and a dialogue. -/
def still (g : Game) : (Ground × Core) × SceneTables × Vars := (g.hull, g.tables, g.vars)

theorem ground_tables (t : SceneTables) (g : Game) :
    ({ g with tables := t } : Game).ground = { g.ground with stock := t.stock } := rfl

/-! ### Sound and drawing -/

/-- Where drawing and sounds lead: to what stands in the relation `K` to where they started if they
succeed, and in the relation `E` if they fail. -/
structure DrawActs (K E : Game → Game → Prop) : Prop where
  chains : Chains K E
  aside : ∀ (g : Game) (stage : Stage) (ui : Interface) (sound : SceneSound) (music : Music),
    K g { g with stage, ui, sound, music }
  draws : ∀ (g : Game) (frame : Surface), frame.shape = g.frame.shape → K g { g with frame }

/-- Where showing what was drawn leads, too. -/
structure ShowActs (K E : Game → Game → Prop) : Prop extends DrawActs K E where
  shows : ∀ (g : Game) (stage : Stage), K g { g with stage, frame := g.background }

namespace DrawActs

variable {K E : Game → Game → Prop} (hK : DrawActs K E)
include hK

theorem stopSound : Within K E stopSound := fun g => hK.aside g _ _ _ _

theorem startSound (name : String) : Within K E (startSound name) := by
  refine .change fun g => ?_
  split
  · exact hK.chains.refl g
  · split
    · exact hK.aside g _ _ _ _
    · exact hK.chains.refl g

theorem stopMusic : Within K E stopMusic := fun g => hK.aside g _ _ _ _

theorem playMusic (name : String) : Within K E (playMusic name) := by
  refine .change fun g => ?_
  split
  · exact hK.chains.refl g
  · exact hK.aside g _ _ _ _

theorem onStage (f : Stage → Stage) : Within K E (onStage f) := fun g => hK.aside g _ _ _ _

theorem onInput (f : Input → Input) : Within K E (onInput f) := hK.onStage _

theorem onUi (f : Interface → Interface) : Within K E (onUi f) := fun g => hK.aside g _ _ _ _

theorem onFrame {f : Surface → Surface} (hf : ∀ s, (f s).shape = s.shape) : Within K E (onFrame f) :=
  fun g => hK.draws g _ (hf g.frame)

theorem drawObject (m : Moment) (slot : Nat) : Within K E (drawObject m slot) := by
  have hC := hK.chains
  refine hC.look fun _ => hC.bind (hC.lift _) fun _ => hC.bind (hC.lift _) fun _ => hK.onFrame fun s => ?_
  split
  · exact Sprite.shape_drawMirrored _ _ _ s
  · exact Sprite.shape_draw _ _ _ s

theorem drawBox (b : SceneBox) : Within K E (drawBox b) := by
  refine hK.chains.look fun _ => hK.onFrame fun s => ?_
  dsimp only
  split
  · exact Block.shape_copy _ _ _ _ _ s
  · exact Block.shape_mix _ _ _ _ _ s _ _

theorem drawLayers (m : Moment) (leaveOut : Nat → Bool) (l : List Layer) : Within K E (drawLayers m leaveOut l) := by
  have hC := hK.chains
  induction l with
  | nil => exact hC.value _
  | cons a l ih =>
    cases a with
    | object rank slot => exact .ite (hC.bind (hK.drawObject m slot) fun _ => ih) ih
    | box b => exact hC.bind (hK.drawBox b) fun _ => ih

theorem drawBanner : Within K E drawBanner := by
  have hC := hK.chains
  refine hC.look fun _ => .ite ?_ (hC.value _)
  split
  · exact hC.value _
  · exact hC.bind (hC.lift _) fun _ => hK.onFrame fun s => Sprite.shape_draw _ _ _ s

theorem drawInterface : Within K E drawInterface := by
  have hC := hK.chains
  have signs (l : Surface → List PlacedSprite) : Within K E (Game.onFrame fun s => PlacedSprite.drawAll (l s) s) :=
    hK.onFrame fun s => PlacedSprite.shape_drawAll _ s
  exact hC.bind hK.drawBanner fun _ => hC.look fun _ => hC.bind (signs _) fun _ =>
    .ite (hC.bind (signs _) fun _ => hK.onUi _) (hC.value _)

theorem playVideo (path : String) : Within K E (playVideo path) := by
  have hC := hK.chains
  refine hC.look fun g => ?_
  split
  · exact hC.value _
  · refine hC.bind (hK.onStage _) fun _ => hC.bind (hK.onStage _) fun _ g => ?_
    simp only [Leads]
    split
    · rename_i h
      split at h <;> cases h
      exact hK.aside g _ _ _ _
    · rename_i h
      split at h <;> cases h
      exact hC.fails (hK.aside g _ _ _ _) (hC.stop _)

end DrawActs

namespace ShowActs

variable {K E : Game → Game → Prop} (hK : ShowActs K E)
include hK

theorem showFrame : Within K E showFrame := fun g => hK.shows g _

theorem drawScene : Within K E drawScene := by
  have hC := hK.chains
  exact hC.look fun _ => hC.bind (hK.drawLayers _ _ _) fun _ =>
    .ite (hC.bind hK.drawInterface fun _ => hK.showFrame) hK.showFrame

end ShowActs

/-- A part of a game in which nothing is seen of what is shown and played. -/
def Unseen {τ : Type} (f : Game → τ) : Prop :=
  ∀ (g : Game) (stage : Stage) (frame : Surface) (ui : Interface) (sound : SceneSound) (music : Music),
    f { g with stage, frame, ui, sound, music } = f g

theorem unseen_tables : Unseen Game.tables := fun _ _ _ _ _ _ => rfl

theorem Unseen.showActs {τ : Type} {f : Game → τ} (hf : Unseen f) :
    ShowActs (fun g g' => f g' = f g) fun g g' => f g' = f g where
  chains := Chains.same f
  aside g _ _ _ _ := hf g _ _ _ _ _
  draws g _ _ := hf g _ _ _ _ _
  shows g _ := hf g _ _ _ _ _

/-- Whether it succeeds or fails, a step leaves the ground as it is. -/
def Stays {α : Type} (m : M α) : Prop := Leaves ground m

theorem chains_ground : Chains (fun g g' : Game => g'.ground = g.ground) fun g g' => g'.ground = g.ground :=
  Chains.same ground

namespace Stays

variable {α β : Type} {m n : M α}

theorem value (a : α) : Stays (pure a) := chains_ground.value a

theorem fault (e : GameError) : Stays (throw e : M α) := chains_ground.fault e

theorem lift (e : Except GameError α) : Stays (ofExcept e : M α) := chains_ground.lift e

theorem bind {f : α → M β} (hm : Stays m) (hf : ∀ a, Stays (f a)) : Stays (m >>= f) := chains_ground.bind hm hf

theorem look {f : Game → M α} (hf : ∀ g, Stays (f g)) : Stays (get >>= f) := chains_ground.look hf

theorem ite {c : Prop} [Decidable c] (hm : Stays m) (hn : Stays n) : Stays (if c then m else n) := Within.ite hm hn

theorem discard (hm : Stays m) : Stays (discard m) := hm.bind fun _ => value _

theorem change {f : Game → Game} (hf : ∀ g, (f g).ground = g.ground) : Stays (modify f) := hf

theorem modifyGet {f : Game → α × Game} (hf : ∀ g, (f g).2.ground = g.ground) : Stays (modifyGet f : M α) := hf

theorem onTables {f : SceneTables → SceneTables} (hf : ∀ t, (f t).stock = t.stock) :
    Stays (onTables f) := change fun g => by rw [ground, hf]; rfl

theorem onObject (i : Nat) (f : SceneObject → SceneObject) : Stays (onObject i f) := onTables fun _ => rfl

theorem onStage (f : Stage → Stage) : Stays (onStage f) := change fun _ => rfl

theorem onInput (f : Input → Input) : Stays (onInput f) := change fun _ => rfl

theorem onBag (f : Bag → Bag) : Stays (onBag f) := change fun _ => rfl

theorem onUi (f : Interface → Interface) : Stays (onUi f) := change fun _ => rfl

theorem onFrame (f : Surface → Surface) : Stays (onFrame f) := change fun _ => rfl

theorem setVar (i : Fin numVars) (v : Int16) : Stays (setVar i v) := change fun _ => rfl

theorem clearKeys : Stays clearKeys := change fun _ => rfl

theorem input : Stays input := look fun _ => value _

theorem readFile (name : String) : Stays (readFile name) := look fun _ => lift _

theorem readResource (decode : ByteArray → Except ResourceError α) (name : String) :
    Stays (readResource decode name) := (readFile name).bind fun _ => lift _

end Stays

/-! ### What leaves ground and core as they are -/

/-- Where the movement of objects leads, too, and whatever else leaves the ground and the core as they are. -/
structure IdleActs (K E : Game → Game → Prop) : Prop where
  chains : Chains K E
  moves : ∀ {g g' : Game}, g'.hull = g.hull → K g g'
  shows : ∀ (g : Game) (stage : Stage), K g { g with stage, frame := g.background }

theorem idle_ground : IdleActs (fun g g' : Game => g'.ground = g.ground) fun g g' => g'.ground = g.ground where
  chains := chains_ground
  moves h := (Prod.ext_iff.mp h).1
  shows _ _ := rfl

theorem hull_draws (g : Game) {frame : Surface} (h : frame.shape = g.frame.shape) : ({ g with frame } : Game).hull = g.hull := by
  simp only [hull, ground, core, h]

theorem draw_still : DrawActs (fun g g' : Game => g'.still = g.still) fun g g' => g'.still = g.still where
  chains := Chains.same still
  aside _ _ _ _ _ := rfl
  draws g _ h := Prod.ext (g.hull_draws h) rfl

theorem hull_onObject {g : Game} {i : Nat} {f : SceneObject → SceneObject} (hf : (f (g.object i)).title = (g.object i).title) :
    ({ g with tables := g.tables.modifyObject i f } : Game).hull = g.hull :=
  Prod.ext rfl (congrArg (fun titles => { g.core with titles }) (SceneTables.titles_modifyObject hf))

namespace IdleActs

variable {K E : Game → Game → Prop} (hK : IdleActs K E) {α : Type} {m : M α}
include hK

theorem showActs : ShowActs K E where
  chains := hK.chains
  aside _ _ _ _ _ := hK.moves rfl
  draws g _ h := hK.moves (g.hull_draws h)
  shows := hK.shows

theorem change {f : Game → Game} (hf : ∀ g, (f g).hull = g.hull) : Within K E (modify f : M PUnit) := fun g => hK.moves (hf g)

theorem onObject (i : Nat) {f : SceneObject → SceneObject} (hf : ∀ o, (f o).title = o.title) : Within K E (onObject i f) :=
  fun _ => hK.moves (hull_onObject (hf _))

theorem setVar (i : Fin numVars) (v : Int16) : Within K E (setVar i v) := hK.change fun _ => rfl

theorem clearKeys : Within K E clearKeys := hK.change fun _ => rfl

theorem input : Within K E input := hK.chains.look fun _ => hK.chains.value _

theorem readFile (name : String) : Within K E (readFile name) := hK.chains.look fun _ => hK.chains.lift _

theorem readResource (decode : ByteArray → Except ResourceError α) (name : String) : Within K E (readResource decode name) :=
  hK.chains.bind (hK.readFile name) fun _ => hK.chains.lift _

/-! ### Objects -/

theorem startState (o : SceneObject) : Within K E (startState o) := by
  have hC := hK.chains
  unfold Game.startState
  split
  · exact hC.value _
  · exact hC.bind (fun _ => hK.moves rfl) fun _ => hC.value _
  · exact hC.value _
  · exact hC.value _

theorem startObject (i : Nat) : Within K E (startObject i) := by
  have hC := hK.chains
  refine hC.look fun g => .ite (hC.value _) (hC.bind (hK.startState _) fun state => .ite (hC.value _) ?_)
  exact hC.look fun g => hC.bind (hC.lift _) fun frame => hC.bind (hC.lift _) fun h => hK.onObject i fun o => o.title_placed frame h state

theorem startObjects (l : List Nat) : Within K E (startObjects l) := by
  have hC := hK.chains
  induction l with
  | nil => exact hC.value _
  | cons i l ih => exact hC.bind (hK.startObject i) fun _ => ih

theorem advanceObject (i : Nat) : Within K E (advanceObject i) := by
  have hC := hK.chains
  refine hC.bind (hK.onObject i fun _ => rfl) fun _ => hC.look fun g => .ite ?_ (hC.value _)
  exact hC.bind (hK.onObject i fun _ => rfl) fun _ => hC.look fun g => hC.bind (hC.lift _) fun _ => hC.bind (hC.lift _) fun _ =>
    hC.bind (hC.lift _) fun _ => hK.onObject i fun _ => rfl

theorem advanceObjects (l : List Nat) : Within K E (advanceObjects l) := by
  have hC := hK.chains
  induction l with
  | nil => exact hC.value _
  | cons i l ih => exact hC.bind (hK.advanceObject i) fun _ => ih

theorem removeObjects : Within K E (onTables removeObjects) := by
  refine hK.change fun g => ?_
  unfold Game.removeObjects
  generalize List.range g.tables.objectsCount = l
  induction l generalizing g with
  | nil => rfl
  | cons i l ih =>
    refine (ih { g with tables := g.tables.modifyObject i _ }).trans (hull_onObject ?_)
    split <;> rfl

/-! ### Drawing -/

theorem drawObjects : Within K E drawObjects :=
  have hC := hK.chains
  hC.bind hK.showActs.drawScene fun _ => hC.bind hK.removeObjects fun _ => hC.look fun _ => hK.advanceObjects _

theorem checkOver : Within K E checkOver :=
  have hC := hK.chains
  hC.look fun _ => .ite (hC.bind (hK.change fun _ => rfl) fun _ => hC.bind (hK.showActs.playMusic _) fun _ =>
    hK.change fun _ => rfl) (hC.value _)

end IdleActs

end Game

end Adventure
