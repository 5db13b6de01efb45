import Adventure.Proofs.Game.Frames
import Adventure.Proofs.Game.Slots
import Adventure.Proofs.Game.Stock
import Adventure.Proofs.Scene.Rounds

/-! What can become of a running game by whatever it is asked to do. Only loading and dropping movies,
putting a saved game in place and starting anew touch the tables of movies, and nothing changes the
files or the first scene. What these few steps keep, all calls keep. -/

namespace Adventure

/-- The part of a game that calls change by these steps alone. -/
structure Base where
  data : DataDir
  firstScene : String
  stock : Stock

namespace Game

def base (g : Game) : Base := ⟨g.data, g.firstScene, g.tables.stock⟩

theorem base_of_ground {g g' : Game} (h : g'.ground = g.ground) : g'.base = g.base := by
  rw [base, base, show g'.data = g.data from congrArg Ground.data h,
    show g'.firstScene = g.firstScene from congrArg Ground.firstScene h,
    show g'.tables.stock = g.tables.stock from congrArg Ground.stock h]

theorem base_of_core {g g' : Game} (h : g'.core = g.core) : g'.base = g.base := by
  rw [base, base, show g'.data = g.data from congrArg Core.data h,
    show g'.firstScene = g.firstScene from congrArg Core.firstScene h,
    show g'.tables.stock = g.tables.stock from congrArg Core.stock h]

/-! ### Calls -/

/-- What a game can be asked to do. -/
inductive Call where
  | restart
  | loadScene (name : String)
  | runFrame
  | playIntro
  | playVideo (path : String)
  | run

def Call.perform : Call → M Unit
  | .restart => Game.restart
  | .loadScene name => Game.loadScene name
  | .runFrame => discard Game.runFrame
  | .playIntro => Game.playIntro
  | .playVideo path => discard (Game.playVideo path)
  | .run => discard Game.run

namespace IdleActs

variable {K E : Game → Game → Prop} (hK : IdleActs K E) (hdrop : ∀ anim, Within K E (dropBehind anim))
  (hframe : Within K E runFrame)
include hK hframe

theorem runFrames (n : Nat) : Within K E (runFrames n) := by
  have hC := hK.chains
  induction n with
  | zero => exact hC.value _
  | succ n ih => exact hC.look fun _ => .ite (hC.bind hframe fun _ => .ite ih (hC.value _)) (hC.value _)

include hdrop

theorem run : Within K E run :=
  have hC := hK.chains
  hC.bind hK.playIntro fun _ => hC.bind (hK.runFrames hframe _) fun _ => hC.bind (hdrop _) fun _ =>
    hC.bind hK.showActs.stopMusic fun _ => hC.bind (hK.showActs.onStage _) fun _ => hC.look fun _ => hC.value _

/-- Whatever a game is asked to do is made of frames, but for starting anew and reading a scene. -/
theorem perform (hrestart : Within K E restart) {c : Call} (hscene : ∀ name, c = .loadScene name → Within K E (loadScene name)) :
    Within K E c.perform := by
  have hC := hK.chains
  cases c with
  | restart => exact hrestart
  | loadScene name => exact hscene name rfl
  | runFrame => exact hC.bind hframe fun _ => hC.value _
  | playIntro => exact hK.playIntro
  | playVideo path => exact hC.bind (hK.showActs.playVideo path) fun _ => hC.value _
  | run => exact hC.bind (hK.run hdrop hframe) fun _ => hC.value _

end IdleActs

/-- A scene is read under a name that can be that of the scene. -/
theorem GameActs.loadScene {K E : Game → Game → Prop} (hK : GameActs K E) {name : String}
    (hname : ∀ g : Game, K g { g with sceneFile := name }) (hread : Within K E (Game.readScene name)) :
    Within K E (loadScene name) :=
  have hC := hK.chains
  hC.bind (m := modify _) hname fun _ => hC.bind hread fun _ => hK.usePalette

theorem GameActs.perform {K E : Game → Game → Prop} (hK : GameActs K E) (hbegin : Within K E beginDialogue) {c : Call}
    (hname : ∀ name, c = .loadScene name → ∀ g : Game, K g { g with sceneFile := name })
    (hread : ∀ name, c = .loadScene name → Within K E (Game.readScene name)) : Within K E c.perform :=
  hK.toIdleActs.perform hK.dropBehind (hK.runFrame hbegin) hK.restart fun name h => hK.loadScene (hname name h) (hread name h)

/-! ### What all calls keep -/

/-- Where calls can lead: to what stands in the relation `K` to where they started if they succeed, and in
the relation `E` if they fail. -/
structure CallActs (K E : Game → Game → Prop) : Prop where
  chains : Chains K E
  base : ∀ {g g' : Game}, g'.base = g.base → K g g'
  loads : ∀ (g : Game) {loaded : Loaded}, loaded ≠ .nothing → K g { g with tables := { g.tables with loaded } }
  dropBehind : ∀ anim, Within K E (dropBehind anim)
  loadBackground : ∀ name, Within K E (loadBackground name)
  loadMovie : ∀ name, Within K E (loadMovie name)
  restore : ∀ s g, K g (restore s g)
  restart : ∀ g, K g (restarted g)

namespace CallActs

variable {K E : Game → Game → Prop} (hK : CallActs K E) {α : Type} {m : M α}
include hK

theorem of_stays (hm : Stays m) : Within K E m := fun g =>
  (hm g).mono (fun _ _ h => hK.base (base_of_ground h)) fun _ h => hK.chains.fails (hK.base (base_of_ground h)) (hK.chains.stop _)

theorem within_loadScreen (name : String) : Within K E (loadScreen name) := by
  have hC := hK.chains
  refine hC.bind (hK.of_stays (Stays.onTables SceneTables.stock_clearBoxes)) fun _ =>
    hC.bind (hK.loadBackground name) fun _ g => hK.loads g ?_
  split <;> decide

theorem hostActs : Description.HostActs (H := Game) K E where
  chains := hK.chains
  setSceneNumber _ _ := hK.base rfl
  dropBehind := hK.dropBehind
  expectMovie g := hK.loads g (by decide : Loaded.background ≠ .nothing)
  loadMovie := hK.loadMovie
  loadScreen := hK.within_loadScreen
  setMusic name := hK.of_stays (Stays.change (ground_setMusic name))
  setTrack _ _ := hK.base rfl
  modifyObject _ _ _ _ := hK.base rfl
  setClass _ _ _ := hK.base rfl
  setBagPosition _ _ _ := hK.base rfl
  addBagEntry name file g _ := hK.of_stays (Stays.addBagEntry name file) g
  addNextScene s := hK.of_stays (Stays.addNextScene s)
  pushBox _ _ _ _ := hK.base rfl

theorem within_readScene (name : String) : Within K E (readScene name) :=
  hK.chains.bind (hK.of_stays (Stays.readFile name)) fun _ => Description.parse_within hK.hostActs (fun _ => hK.base rfl) _

theorem within_saveSlot (slot : Nat) : Within K E (saveSlot slot) := fun g => by
  refine (saveSlot_leads slot g).mono (fun _ g' hg => ?_) fun g' hg => ?_
  · obtain ⟨_, saves, -, -, rfl⟩ := hg
    exact hK.base rfl
  · rw [hg]
    exact hK.chains.stop g

theorem gameActs : GameActs K E where
  toFrameActs := .of_ground hK.chains (fun h => hK.base (base_of_ground h)) (fun _ _ => hK.base rfl) hK.dropBehind
  core h := hK.base (base_of_core h)
  enters _ := hK.base rfl
  readScene name _ := hK.within_readScene name
  loadMovie := hK.loadMovie
  asksSaved _ _ := hK.base rfl
  restores _ _ := hK.restore _ _
  saveSlot := hK.within_saveSlot
  restarts := hK.restart
  mode _ _ _ := hK.base rfl
  ends _ := hK.base rfl

theorem within_perform (c : Call) : Within K E c.perform :=
  hK.gameActs.perform (hK.of_stays Stays.beginDialogue) (fun _ _ _ => hK.base rfl) fun name _ => hK.within_readScene name

end CallActs

/-- A step keeps `P` of the files and the tables of movies if it succeeds, and leaves `Q` if not. -/
def Keeps {α : Type} (P Q : DataDir → Stock → Prop) (m : M α) : Prop :=
  Within (fun g g' : Game => P g.data g.tables.stock → P g'.data g'.tables.stock)
    (fun g g' => P g.data g.tables.stock → Q g'.data g'.tables.stock) m

theorem data_restore (s : SaveState) (g : Game) : (restore s g).data = g.data := by
  simp only [restore]

theorem stock_restore (s : SaveState) (g : Game) :
    (restore s g).tables.stock = { g.tables.stock with objectsCount := s.objects.length } := rfl

end Game

/-- What the steps that touch the tables of movies keep: `P` holds of the files and of the tables
as long as these steps succeed, and `Q` is left of it when one fails. -/
structure StockLaw (P Q : DataDir → Stock → Prop) : Prop where
  fails : ∀ {d s}, P d s → Q d s
  empty : ∀ d, P d Stock.empty
  keepUpTo : ∀ {d s}, P d s → ∀ i, P d (s.keepUpTo i)
  append : ∀ {d s name movie bank}, P d s → Game.resource d Movie.decode name = .ok movie →
    Game.resource d SpriteBank.decode (Movie.bankPath name movie.bankName) = .ok bank →
    s.started.Fits movie bank → P d (s.started.append name movie bank)
  stopped : ∀ {d s s'}, P d s → s.Stopped s' → Q d s'
  counts : ∀ {d s}, P d s → ∀ n, P d { s with objectsCount := n }
  loads : ∀ {d s}, P d s → ∀ {loaded}, loaded ≠ Loaded.nothing → P d { s with loaded }

namespace StockLaw

open Game

variable {P Q : DataDir → Stock → Prop} (law : StockLaw P Q)
include law

theorem keeps_dropBehind (anim : Int) : Keeps P Q (dropBehind anim) := fun g => by
  refine (dropBehind_leads anim g).mono (fun _ g' hg h => ?_) fun g' hg h => ?_
  · obtain ⟨s, hg, hs⟩ := hg
    rw [show g'.data = g.data from congrArg Ground.data hg, show g'.tables.stock = s from congrArg Ground.stock hg]
    rcases hs with ⟨-, rfl⟩ | ⟨i, -, rfl⟩
    · exact law.empty _
    · exact law.keepUpTo h i
  · rw [hg]
    exact law.fails h

theorem keeps_loadMovie (name : String) : Keeps P Q (loadMovie name) := fun g => by
  refine (loadMovie_leads name g).mono (fun _ g' hg h => ?_) fun g' hg h => ?_
  · obtain ⟨movie, bank, hmovie, hbank, hfits, -, hg⟩ := hg
    rw [show g'.data = g.data from congrArg Ground.data hg,
      show g'.tables.stock = g.tables.stock.started.append name movie bank from congrArg Ground.stock hg]
    exact law.append h hmovie hbank hfits
  · obtain ⟨s, hs, hg⟩ := hg
    rw [show g'.data = g.data from congrArg Ground.data hg, show g'.tables.stock = s from congrArg Ground.stock hg]
    exact law.stopped h hs

theorem keeps_loadBackground (name : String) : Keeps P Q (loadBackground name) := fun g => by
  refine (loadBackground_leads name g).mono (fun _ g' hg h => ?_) fun g' hg h => ?_
  · rw [show g'.data = g.data from congrArg Ground.data hg,
      show g'.tables.stock = { g.tables.stock with loaded := .background } from congrArg Ground.stock hg]
    exact law.loads h (by decide)
  · rw [hg]
    exact law.fails h

/-- A saved game brings objects along, and no movies. -/
theorem restores (s : SaveState) (g : Game) (h : P g.data g.tables.stock) :
    P (restore s g).data (restore s g).tables.stock := by
  rw [data_restore, stock_restore]
  exact law.counts h _

theorem callActs : CallActs (fun g g' : Game => P g.data g.tables.stock → P g'.data g'.tables.stock)
    fun g g' => P g.data g.tables.stock → Q g'.data g'.tables.stock where
  chains := Chains.keeps (P := fun g : Game => P g.data g.tables.stock) (Q := fun g : Game => Q g.data g.tables.stock)
    fun _ => law.fails
  base {g g'} h hP := by
    rwa [show g'.data = g.data from congrArg Base.data h, show g'.tables.stock = g.tables.stock from congrArg Base.stock h]
  loads _ _ hloaded h := law.loads h hloaded
  dropBehind := law.keeps_dropBehind
  loadBackground := law.keeps_loadBackground
  loadMovie := law.keeps_loadMovie
  restore := law.restores
  restart g _ := law.empty g.data

theorem keeps_perform (c : Call) : Keeps P Q c.perform := law.callActs.within_perform c

end StockLaw

end Adventure
