import Adventure.Proofs.Game.Calls
import Adventure.Proofs.Game.Partition
import Adventure.Proofs.Save.Accepted

/-! No table of a game has more entries than it may have, and a scene is drawn on a frame of the size of its background.
Each of the steps that fill a table looks at its size, or cuts what it is given; a step that fails leaves the
tables in bounds as well. -/

namespace Adventure

/-- No table of movies has more entries than it may have, and there are at most `n` animations. -/
structure Stock.Few (n : Nat) (s : Stock) : Prop where
  animations : s.animations.size ≤ n
  motions : s.motions.size ≤ maxMotions
  frames : s.frames.size ≤ maxFrames
  sounds : s.sounds.size ≤ maxSounds
  objects : s.objectsCount ≤ maxObjects

namespace Stock

theorem few_empty (n : Nat) : empty.Few n := ⟨Nat.zero_le _, Nat.zero_le _, Nat.zero_le _, Nat.zero_le _, Nat.zero_le _⟩

theorem Few.mono {n m : Nat} {s : Stock} (h : s.Few n) (hn : n ≤ m) : s.Few m :=
  ⟨Nat.le_trans h.animations hn, h.motions, h.frames, h.sounds, h.objects⟩

/-- What has been loaded is not counted. -/
theorem Few.loads {n : Nat} {s : Stock} (h : s.Few n) (loaded : Loaded) : Few n { s with loaded } :=
  ⟨h.animations, h.motions, h.frames, h.sounds, h.objects⟩

theorem Few.keepUpTo {n : Nat} {s : Stock} (h : s.Few n) (anim : Fin s.animations.size) : (s.keepUpTo anim).Few n where
  animations := Nat.le_trans (Partitioned.size_take_le _ _) h.animations
  motions := Nat.le_trans (Partitioned.size_take_le _ _) h.motions
  frames := Nat.le_trans (Partitioned.size_take_le _ _) h.frames
  sounds := Nat.le_trans (Partitioned.size_take_le _ _) h.sounds
  objects := Nat.min_le_right _ _

end Stock

namespace SceneTables

/-- No table has more entries than it may have, and there are at most `n` animations. -/
structure Bounded (n : Nat) (t : SceneTables) : Prop where
  stock : t.stock.Few n
  boxes : ∀ group, t.boxCount group ≤ boxesPerGroup
  exits : t.nextScenes.length ≤ maxNextScenes

variable {n m : Nat} {t u : SceneTables}

theorem bounded_empty (n : Nat) : Bounded n {} where
  stock := Stock.few_empty n
  boxes group := by
    unfold boxCount
    cases h : (Vector.replicate numBoxGroups 0)[group]? with
    | none => exact Nat.zero_le _
    | some k =>
      obtain ⟨hg, rfl⟩ := Vector.getElem?_eq_some_iff.mp h
      rw [Option.getD_some, Vector.getElem_replicate]
      exact Nat.zero_le _
  exits := Nat.zero_le _

namespace Bounded

/-- Boxes and exits stay, and movies still fit. -/
theorem beside (h : Bounded n t) (hs : u.stock.Few m) (hboxes : u.boxCounts = t.boxCounts) (hexits : u.nextScenes = t.nextScenes) :
    Bounded m u where
  stock := hs
  boxes group := by
    rw [boxCount, hboxes]
    exact h.boxes group
  exits := hexits ▸ h.exits

theorem setBoxCount (h : Bounded n t) (group : Nat) {k : Nat} (hk : k ≤ boxesPerGroup) : Bounded n (setBoxCount group k t) where
  stock := h.stock
  boxes i := by
    unfold boxCount SceneTables.setBoxCount
    rw [Vector.getElem?_setIfInBounds]
    split
    · split
      · exact hk
      · exact Nat.zero_le _
    · exact h.boxes i
  exits := h.exits

theorem clearBoxes (h : Bounded n t) : Bounded n t.clearBoxes :=
  List.foldlRecOn (motive := Bounded n) _ _ h fun _ h group _ => h.setBoxCount group (Nat.zero_le _)

theorem keepBoxes (h : Bounded n t) (keep : Bool) : Bounded n (ownGroups.foldl (Operator.keepBoxes keep) t) := by
  refine List.foldlRecOn (motive := Bounded n) _ _ h fun t h group _ => ?_
  cases keep with
  | false => exact h.setBoxCount _ (Nat.zero_le _)
  | true =>
    have hsame : Bounded n { t with boxes := modifySlot t.boxes (boxesPerGroup + group) fun old => t.boxes[group]?.getD old } :=
      h.beside h.stock rfl rfl
    exact hsame.setBoxCount _ (h.boxes group)

theorem resetUnused (h : Bounded n t) : Bounded n t.resetUnused :=
  List.foldlRecOn (motive := Bounded n) _ _ h fun _ h _ _ => h.beside h.stock rfl rfl

theorem dropAll (h : Bounded n t) : Bounded n t.dropAll := by
  have hempty : Bounded n { t with
      nextScenes := [], sounds := #[], animations := #[], objectsCount := 0, motions := #[], frames := #[], loaded := .nothing } :=
    ⟨Stock.few_empty n, h.boxes, Nat.zero_le _⟩
  exact hempty.resetUnused.clearBoxes

theorem keepUpTo (h : Bounded n t) (anim : Fin t.animations.size) : Bounded n (t.keepUpTo anim) := by
  refine Bounded.clearBoxes (Bounded.resetUnused ⟨?_, h.boxes, Nat.zero_le _⟩)
  exact h.stock.keepUpTo anim

theorem dropBehind (h : Bounded n t) {anim : Int} (hu : t.dropBehind anim = .ok u) : Bounded n u := by
  unfold SceneTables.dropBehind at hu
  by_cases hall : anim = -1
  · rw [if_pos hall] at hu
    exact Except.ok.inj hu ▸ h.dropAll
  · rw [if_neg hall] at hu
    obtain ⟨i, -, hu⟩ := except_bind_eq_ok.mp hu
    exact Except.ok.inj hu ▸ h.keepUpTo i

/-- Of the boxes that a saved game counts no more are in use than there are. -/
theorem boxCount_restoreTables (h : Bounded n t) (s : SaveState) (group : Nat) :
    (Game.restoreTables s t).boxCount group ≤ boxesPerGroup := by
  have hcounts : (Game.restoreTables s t).boxCounts =
      Game.overwrite t.boxCounts (s.boxCounts.map fun n => min n.toInt.toNat boxesPerGroup) := rfl
  rw [boxCount, hcounts]
  by_cases hg : group < numBoxGroups
  · rw [Vector.getElem?_eq_getElem hg, Option.getD_some, Game.getElem_overwrite, List.getElem?_map]
    cases s.boxCounts[group]? with
    | none =>
      have hold := h.boxes group
      rwa [boxCount, Vector.getElem?_eq_getElem hg] at hold
    | some k => exact Nat.min_le_right _ _
  · rw [Vector.getElem?_eq_none (Nat.not_lt.mp hg)]
    exact Nat.zero_le _

theorem restoreTables (h : Bounded n t) {s : SaveState} (hs : s.Accepted) : Bounded n (Game.restoreTables s t) where
  stock := by
    have hstock : (Game.restoreTables s t).stock = { t.stock with objectsCount := s.objects.length } := rfl
    rw [hstock]
    exact ⟨h.stock.animations, h.stock.motions, h.stock.frames, h.stock.sounds, hs.objects⟩
  boxes := h.boxCount_restoreTables s
  exits := by
    simp only [Game.restoreTables]
    exact h.exits

end Bounded

/-! ### Movies are loaded -/

theorem bounded_addSounds (n : Nat) (names : List String) : Maintains (Bounded n) (addSounds names) := by
  refine fun t => Leads.look (Leads.ite (fun _ => id) fun hroom h => ?_)
  refine h.beside ⟨h.stock.animations, h.stock.motions, h.stock.frames, ?_, h.stock.objects⟩ rfl rfl
  simp only [stock, Array.size_append, List.size_toArray]
  omega

theorem bounded_addBox (n : Nat) (b : MovieBox) : Maintains (Bounded n) (addBox b) := by
  refine fun t => Leads.ite (fun _ => id) fun _ => Leads.look (Leads.ite (fun _ => id) fun hroom h => ?_)
  have hsame : Bounded n (t.modifyBox b.group (t.boxCount b.group) fun old =>
      { old with state := b.state, x₁ := b.x₁, y₁ := b.y₁, x₂ := b.x₂, y₂ := b.y₂ }) := h.beside h.stock rfl rfl
  exact hsame.setBoxCount _ (Nat.lt_of_not_le hroom)

theorem bounded_addBoxes (n : Nat) (l : List MovieBox) : Maintains (Bounded n) (addBoxes l) := by
  have hC := Chains.maintains (Bounded n)
  induction l with
  | nil => exact hC.value _
  | cons b l ih => exact hC.bind (bounded_addBox n b) fun _ => ih

theorem bounded_addObject (n : Nat) (motionInit : Int16) (o : MovieObject) : Maintains (Bounded n) (addObject motionInit o) := by
  refine fun t => Leads.look (Leads.ite (fun _ => id) fun hroom => Leads.ite (fun _ => id) fun _ h => ?_)
  exact h.beside ⟨h.stock.animations, h.stock.motions, h.stock.frames, h.stock.sounds, Nat.lt_of_not_le hroom⟩ rfl rfl

theorem bounded_addObjects (n : Nat) (motionInit : Int16) (l : List MovieObject) :
    Maintains (Bounded n) (addObjects motionInit l) := by
  have hC := Chains.maintains (Bounded n)
  induction l with
  | nil => exact hC.value _
  | cons o l ih => exact hC.bind (bounded_addObject n motionInit o) fun _ => ih

theorem bounded_addBank (n anim : Nat) (bank : SpriteBank) : Maintains (Bounded n) (addBank anim bank) := by
  refine fun t => Leads.look (Leads.ite (fun _ => id) fun hmotions => Leads.ite (fun _ => id) fun hframes h => ?_)
  obtain ⟨hm, hf⟩ := t.stock.size_addMotions anim bank
  have hcounts : (bank.motions.foldl (addMotion anim) t).boxCounts = t.boxCounts := same_foldl boxCounts _ t fun _ _ => rfl
  have hexits : (bank.motions.foldl (addMotion anim) t).nextScenes = t.nextScenes := same_foldl nextScenes _ t fun _ _ => rfl
  refine h.beside ?_ hcounts hexits
  rw [stock_addMotions]
  refine ⟨?_, hm ▸ Nat.not_lt.mp hmotions, hf ▸ Nat.not_lt.mp hframes, ?_, ?_⟩
  · exact (t.stock.addMotions_animations anim bank) ▸ h.stock.animations
  · exact (t.stock.addMotions_with anim bank t.stock.sounds t.stock.objectsCount) ▸ h.stock.sounds
  · exact (t.stock.addMotions_with anim bank t.stock.sounds t.stock.objectsCount) ▸ h.stock.objects

theorem Bounded.startMovies (h : Bounded n t) : Bounded n t.startMovies :=
  h.beside ⟨h.stock.animations, Nat.zero_le _, Nat.zero_le _, h.stock.sounds, Nat.zero_le _⟩ rfl rfl

/-- A movie is put behind those that are there. -/
theorem Bounded.push (h : Bounded n t) (a : Animation) (loaded : Loaded) :
    Bounded (n + 1) { t with animations := t.animations.push a, loaded } := by
  refine h.beside ⟨?_, h.stock.motions, h.stock.frames, h.stock.sounds, h.stock.objects⟩ rfl rfl
  change (t.animations.push a).size ≤ n + 1
  rw [Array.size_push]
  exact Nat.succ_le_succ h.stock.animations

end SceneTables

namespace Game

/-- The tables and the bag of a game have no more entries than they may have, there are at most `n` animations,
and the frame has the size of the background, which has all the colours that its rows take. -/
structure Bounded (n : Nat) (g : Game) : Prop where
  tables : g.tables.Bounded n
  bag : g.bag.entries.length ≤ maxBag
  frame : g.frame.shape = g.background.shape
  background : g.background.shape.Full

namespace Bounded

variable {n m : Nat} {g g' : Game}

theorem of_core (h : g.Bounded n) (hg : g'.core = g.core) : g'.Bounded n := by
  have hstock : g'.tables.stock = g.tables.stock := congrArg Core.stock hg
  have hframe : g'.frame.shape = g.frame.shape := congrArg Core.frame hg
  have hbackground : g'.background.shape = g.background.shape := congrArg Core.background hg
  refine ⟨h.tables.beside ?_ (congrArg Core.boxCounts hg) (congrArg Core.nextScenes hg), ?_, ?_, ?_⟩
  · exact hstock ▸ h.tables.stock
  · rw [show g'.bag = g.bag from congrArg Core.bag hg]
    exact h.bag
  · rw [hframe, hbackground, h.frame]
  · exact hbackground ▸ h.background

theorem mono (h : g.Bounded n) (hn : n ≤ m) : g.Bounded m :=
  ⟨⟨h.tables.stock.mono hn, h.tables.boxes, h.tables.exits⟩, h.bag, h.frame, h.background⟩

theorem withTables (h : g.Bounded n) {t : SceneTables} (ht : t.Bounded m) : ({ g with tables := t } : Game).Bounded m :=
  ⟨ht, h.bag, h.frame, h.background⟩

/-- What touches the tables alone. -/
theorem maintains_withTables {α : Type} {step : SceneTables.M α} (hm : Maintains (SceneTables.Bounded n) step) :
    Maintains (Bounded n) (Game.withTables step) := by
  intro g
  refine (withTables_leads (hm g.tables)).mono (fun _ g' hg h => ?_) fun g' hg h => ?_
  · obtain ⟨t, ht, rfl⟩ := hg
    exact h.withTables (ht h.tables)
  · obtain ⟨t, ht, rfl⟩ := hg
    exact h.withTables (ht h.tables)

theorem maintains_onTables {f : SceneTables → SceneTables} (hf : ∀ {t : SceneTables}, t.Bounded n → (f t).Bounded n) :
    Maintains (Bounded n) (onTables f) := fun _ h => h.withTables (hf h.tables)

end Bounded

/-! ### Scenes -/

theorem resource_decoded {α : Type} {d : DataDir} {decode : ByteArray → Except ResourceError α} {name : String} {a : α}
    (h : resource d decode name = .ok a) : ∃ b, decode b = .ok a := by
  obtain ⟨b, -, h⟩ := except_bind_eq_ok.mp h
  exact ⟨b, ok_of_wrap h⟩

theorem bounded_loadBackground (n : Nat) (name : String) : Maintains (Bounded n) (loadBackground name) := by
  intro g
  refine Leads.bind ((readResource_leads _ name g).mono (fun b g' hg => ?_) fun g' hg => hg ▸ id)
  obtain ⟨rfl, hb⟩ := hg
  obtain ⟨file, hfile⟩ := resource_decoded hb
  exact fun h => ⟨h.tables.beside (h.tables.stock.loads .background) rfl rfl, h.bag, rfl, Background.full_decode hfile⟩

theorem bounded_beginMovies (n : Nat) (background : String) : Maintains (Bounded n) (beginMovies background) := by
  have hC := Chains.maintains (Bounded n)
  refine hC.look fun g => .ite ?_ (hC.value _)
  exact hC.bind (bounded_loadBackground n background) fun _ => Bounded.maintains_onTables SceneTables.Bounded.startMovies

/-- A movie that is put behind the others makes one animation. -/
theorem bounded_putMovie (n : Nat) (name : String) (movie : Movie) :
    Within (fun g g' => Bounded n g → Bounded (n + 1) g') (fun g g' => Bounded n g → Bounded (n + 1) g') (putMovie name movie) := by
  have hC := Chains.maintains (Bounded n)
  have parts (m : Int16) : Maintains (Bounded n) (Game.withTables (do
      SceneTables.addSounds movie.sounds; SceneTables.addBoxes movie.boxes; SceneTables.addObjects m movie.objects)) :=
    have hT := Chains.maintains (SceneTables.Bounded n)
    Bounded.maintains_withTables (hT.bind (SceneTables.bounded_addSounds n _) fun _ =>
      hT.bind (SceneTables.bounded_addBoxes n _) fun _ => SceneTables.bounded_addObjects n _ _)
  have hread (decode : ByteArray → Except ResourceError SpriteBank) (name : String) :
      Maintains (Bounded n) (readResource decode name) := fun g =>
    (readResource_leads decode name g).mono (fun _ _ h => h.1 ▸ id) fun _ h => h ▸ id
  have hE : Ends (fun g g' => Bounded n g → Bounded n g') (fun g g' => Bounded n g → Bounded n g')
      (fun g g' => Bounded n g → Bounded (n + 1) g') fun g g' => Bounded n g → Bounded (n + 1) g' := {
    done := fun h hg => (h hg).mono (Nat.le_succ n)
    stopped := fun h hg => (h hg).mono (Nat.le_succ n)
    behind := fun h h' hg => h' (h hg)
    fails := fun h h' hg => h' (h hg) }
  refine hE.bind hC.get fun g => hE.bind (parts _) fun _ => hE.bind (hread _ _) fun bank =>
    hE.bind (Bounded.maintains_withTables (SceneTables.bounded_addBank n _ _)) fun _ g₁ h => ?_
  exact h.withTables (h.tables.push _ _)

theorem bounded_loadMovie (name : String) : Maintains (Bounded maxAnimations) (loadMovie name) := by
  intro g
  refine Leads.bind ((readResource_leads _ name g).mono (fun movie g' hg => ?_) fun g' hg => hg ▸ id)
  obtain ⟨rfl, -⟩ := hg
  refine Leads.look (Leads.ite (fun _ => id) fun hroom => ?_)
  have few (h : g'.Bounded maxAnimations) : g'.Bounded (maxAnimations - 1) :=
    ⟨⟨⟨Nat.le_pred_of_lt (Nat.lt_of_not_le hroom), h.tables.stock.motions, h.tables.stock.frames, h.tables.stock.sounds,
      h.tables.stock.objects⟩, h.tables.boxes, h.tables.exits⟩, h.bag, h.frame, h.background⟩
  refine Leads.bind ((bounded_beginMovies (maxAnimations - 1) movie.backgroundName g').mono (fun _ g₁ h₁ => ?_) fun _ h₁ h => ?_)
  · exact (bounded_putMovie _ name movie g₁).mono (fun _ _ h₂ h => h₂ (h₁ (few h))) fun _ h₂ h => h₂ (h₁ (few h))
  · exact (h₁ (few h)).mono (by decide)

theorem bounded_loadScreen (n : Nat) (name : String) : Maintains (Bounded n) (loadScreen name) := by
  have hC := Chains.maintains (Bounded n)
  refine hC.bind (Bounded.maintains_onTables SceneTables.Bounded.clearBoxes) fun _ =>
    hC.bind (bounded_loadBackground n name) fun _ => Bounded.maintains_onTables fun h => ?_
  exact h.beside (h.stock.loads _) rfl rfl

theorem bounded_dropBehind (n : Nat) (anim : Int) : Maintains (Bounded n) (dropBehind anim) := by
  refine fun g => Leads.look (Leads.bind ((Leads.lift _ g).mono (fun t g' hg => ?_) fun _ hg => hg ▸ id))
  obtain ⟨rfl, ht⟩ := hg
  exact fun h => (h.withTables (h.tables.dropBehind ht)).of_core rfl

theorem bounded_addBagEntry (n : Nat) (name file : String) : Maintains (Bounded n) (addBagEntry name file) := by
  refine fun g => Leads.look (Leads.ite (fun _ => id) fun hroom => ?_)
  refine Leads.bind (Leads.look ((Leads.lift _ g).mono (fun data g' hg => ?_) fun _ hg => hg ▸ id))
  obtain ⟨rfl, -⟩ := hg
  refine fun h => ⟨h.tables, ?_, h.frame, h.background⟩
  change (g'.bag.entries ++ [_]).length ≤ maxBag
  rw [List.length_append]
  exact Nat.lt_of_not_le hroom

theorem bounded_addNextScene (n : Nat) (s : NextScene) : Maintains (Bounded n) (addNextScene s) := by
  refine fun g => Leads.look (Leads.ite (fun _ => id) fun hroom h => h.withTables ⟨h.tables.stock, h.tables.boxes, ?_⟩)
  rw [List.length_append]
  exact Nat.lt_of_not_le hroom

theorem core_setMusic (name : Option String) (g : Game) : (setMusic name g).core = g.core := by
  cases name with
  | none => rfl
  | some name =>
    simp only [setMusic]
    split <;> rfl

theorem bounded_hostActs : Description.HostActs (H := Game) (fun g g' => Bounded maxAnimations g → Bounded maxAnimations g')
    fun g g' => Bounded maxAnimations g → Bounded maxAnimations g' where
  chains := Chains.maintains _
  setSceneNumber _ _ h := h.of_core rfl
  dropBehind := bounded_dropBehind _
  expectMovie _ h := h.withTables (h.tables.beside (h.tables.stock.loads _) rfl rfl)
  loadMovie := bounded_loadMovie
  loadScreen := bounded_loadScreen _
  setMusic name g h := h.of_core (core_setMusic name g)
  setTrack _ _ h := h.of_core rfl
  modifyObject _ _ _ _ h := h.withTables (h.tables.beside h.tables.stock rfl rfl)
  setClass _ _ _ h := h.withTables (h.tables.beside h.tables.stock rfl rfl)
  setBagPosition _ _ _ h := ⟨h.tables, h.bag, h.frame, h.background⟩
  addBagEntry name file g _ := bounded_addBagEntry _ name file g
  addNextScene := bounded_addNextScene _
  pushBox _ _ g hroom h :=
    h.withTables ((h.tables.beside h.tables.stock rfl rfl : SceneTables.Bounded _ (g.tables.modifyBox _ _ _)).setBoxCount _ hroom)

theorem bounded_readScene (name : String) : Maintains (Bounded maxAnimations) (readScene name) := by
  have hC := Chains.maintains (Bounded maxAnimations)
  have start (g : Game) (h : g.Bounded maxAnimations) : (SceneHost.start g).Bounded maxAnimations := h.of_core rfl
  exact hC.bind (hC.look fun _ => hC.lift _) fun _ => Description.parse_within bounded_hostActs start _

/-! ### Calls -/

theorem Bounded.restore {n : Nat} {g : Game} (h : g.Bounded n) {s : SaveState} (hs : s.Accepted) : (restore s g).Bounded n where
  tables := by
    simp only [Game.restore]
    exact h.tables.restoreTables hs
  bag := hs.bag
  frame := by
    simp only [Game.restore]
    exact h.frame
  background := by
    simp only [Game.restore]
    exact h.background

theorem bounded_beginDialogue (n : Nat) : Maintains (Bounded n) beginDialogue := fun g => by
  refine (beginDialogue_leads g).mono (fun _ g' hg h => ?_) fun g' hg h => ?_
  · obtain ⟨c, hg⟩ := hg
    have hcore : ({ g with mode := .dialogue, conversation := some c } : Game).Bounded n := ⟨h.tables, h.bag, h.frame, h.background⟩
    exact hcore.of_core (congrArg (fun s : (Ground × Core) × SceneTables × Vars => s.1.2) hg)
  · exact h.of_core (congrArg (fun s : (Ground × Core) × SceneTables × Vars => s.1.2) hg)

/-- Whatever a game is asked to do, in bounds it stays, also when it fails. -/
theorem bounded_acts : GameActs (fun g g' => Bounded maxAnimations g → Bounded maxAnimations g')
    fun g g' => Bounded maxAnimations g → Bounded maxAnimations g' where
  chains := Chains.maintains _
  moves hg h := h.of_core (Prod.ext_iff.mp hg).2
  shows _ _ h := ⟨h.tables, h.bag, rfl, h.background⟩
  bag hb h := ⟨h.tables, hb.few h.bag, h.frame, h.background⟩
  asks _ h := ⟨h.tables, h.bag, h.frame, h.background⟩
  forgets _ h := ⟨h.tables, h.bag, h.frame, h.background⟩
  keepsBoxes keep _ h := h.withTables (h.tables.keepBoxes keep)
  follows _ h := ⟨h.tables, h.bag, h.frame, h.background⟩
  finishes _ h := ⟨h.tables, h.bag, h.frame, h.background⟩
  dropBehind := bounded_dropBehind _
  core hg h := h.of_core hg
  enters _ h := ⟨h.tables, h.bag, h.frame, h.background⟩
  readScene name _ := bounded_readScene name
  loadMovie := bounded_loadMovie
  asksSaved _ _ h := ⟨h.tables, h.bag, h.frame, h.background⟩
  restores _ hs h := h.restore (SaveState.read_accepted hs)
  saveSlot slot g := by
    refine (saveSlot_leads slot g).mono (fun _ g' hg h => ?_) fun g' hg h => hg ▸ h
    obtain ⟨_, saves, -, -, rfl⟩ := hg
    exact ⟨h.tables, h.bag, h.frame, h.background⟩
  restarts _ h := ⟨SceneTables.bounded_empty _, Nat.zero_le _, h.frame, h.background⟩
  mode _ _ _ h := ⟨h.tables, h.bag, h.frame, h.background⟩
  ends _ h := ⟨h.tables, h.bag, h.frame, h.background⟩

end Game
end Adventure
