import Adventure.Proofs.Game.Origins

/-! Sections about new objects. Their lines are for the objects that the movies of a scene bring, and are skipped for
those of movies that were kept. The game tells them apart by the animation that an object is taken for, which is not
always its own. -/

namespace Adventure

open Description

namespace Description

/-- A line about a new object is skipped if the object is taken for one of an animation that is kept. -/
theorem objectLine_new {H ε : Type} [SceneHost H ε] {s : Description H} {i : Nat} {a : Int} {w : String}
    (hpart : s.part = .newObject) (hobject : s.object = some i) (hanim : SceneHost.objectAnimation s.host i = some a)
    (hw : w ≠ "ObjectEnd") : (objectLine w : M H ε Unit) s =
      if a < s.kept then (skipLine : M H ε Unit) { s with object := none } else (objectProperty i w : M H ε Unit) s := by
  have hdrop : (dropOldObject : M H ε Unit) s = .ok () (if a < s.kept then { s with object := none } else s) := by
    refine congrArg (EStateM.Result.ok ()) ((if_pos hpart).trans ?_)
    simp only [hobject, hanim, Option.any_some, decide_eq_true_eq]
  rw [objectLine, if_neg hw, bind_of_ok hdrop]
  split
  · rfl
  · rw [bind_of_ok (m := MonadState.get) rfl]
    simp only [hobject]

end Description

namespace Game

namespace Brought

variable {origins : List Nat} {g g' : Game}

/-- What a section of movies leaves are the first objects, of animations that are kept, and those that its movies bring. -/
theorem moviesSection {s t : Description Game} {names : List String} (h : Brought origins s.host) (hpart : s.part = .movies)
    (hkept : s.kept = 0) (hloading : s.loading = false) (hsection : MoviesSection s names t) :
    ∃ n later, Brought (origins.take n ++ later) t.host ∧ (∀ a ∈ origins.take n, a < t.kept) ∧ ∀ a ∈ later, t.kept ≤ a := by
  obtain ⟨hfetch, hcommon⟩ := hsection.of_keeping hpart hloading
  rw [hkept, Nat.zero_add] at hcommon
  rw [hkept, fetch_eq hcommon.symm, Nat.zero_add] at hfetch
  -- Before movies are loaded, the objects left are those of the animations that are kept.
  have finish {n : Nat} {g : Game} (hn : Brought (origins.take n) g) (hsize : g.tables.animations.size = t.kept)
      {later : List Nat} (hlater : ∀ a ∈ later, g.tables.animations.size ≤ a) :
      (∀ a ∈ origins.take n, a < t.kept) ∧ ∀ a ∈ later, t.kept ≤ a :=
    ⟨fun a ha => hsize ▸ hn.rooted.lt_size ha, fun a ha => hsize ▸ hlater a ha⟩
  by_cases hrest : names.drop t.kept = []
  · rw [hrest, reload_nil] at hfetch
    refine ⟨t.host.tables.objectsCount, [], ?_, finish (h.drop hfetch) (size_dropBehind hfetch) fun a ha => nomatch ha⟩
    rw [List.append_nil]
    exact h.drop hfetch
  · obtain ⟨g₁, hdrop, hload⟩ := of_reload hrest hfetch
    obtain ⟨n, hn, hsize⟩ : ∃ n, Brought (origins.take n) g₁ ∧ g₁.tables.animations.size = t.kept := by
      split at hdrop
      · rename_i hnone
        subst hdrop
        refine ⟨origins.length, by rwa [List.take_length], ?_⟩
        have hlength : s.host.tables.animations.size = 0 := by
          have htitles : s.host.tables.animations.toList.map (·.name) = [] := hnone
          rwa [List.map_eq_nil_iff, Array.toList_eq_nil_iff, ← Array.size_eq_zero_iff] at htitles
        rw [hcommon, hnone, hlength]
        rfl
      · exact ⟨_, h.drop hdrop, size_dropBehind hdrop⟩
    obtain ⟨later, hlater, hbehind⟩ := hn.expectMovie.loadMovies hload
    exact ⟨n, later, hlater, finish hn hsize hbehind⟩

/-- An object is taken for one of the first animation with motions from that on which brought it. This is its own
animation if that has motions, or if none behind it has. The lines of a section for new objects are done for new objects,
but also for old ones that are taken for new. -/
theorem taken_for (h : Brought origins g) {i : Nat} (hi : i < g.tables.objectsCount) :
    ∃ a, origins[i]? = some a ∧ a < g.tables.animations.size ∧
      SceneHost.objectAnimation g i = some (g.tables.stock.firstMoving a : Int) ∧
      (SceneHost.objectAnimation g i = some (a : Int) ↔ g.tables.stock.Moves a ∨ ∀ b, a < b → ¬g.tables.stock.Moves b) ∧
      ∀ (s : Description Game) (w : String), s.host = g → s.part = .newObject → s.object = some i → w ≠ "ObjectEnd" →
        (g.tables.stock.PassesForNew s.kept a →
          (objectLine w : Description.M Game GameError Unit) s = (objectProperty i w : Description.M Game GameError Unit) s) ∧
        (¬g.tables.stock.PassesForNew s.kept a →
          (objectLine w : Description.M Game GameError Unit) s =
            (skipLine : Description.M Game GameError Unit) { s with object := none }) := by
  have hrooted := h.rooted
  have hlt : i < origins.length := hrooted.length ▸ hi
  have horigin := List.getElem?_eq_getElem hlt
  have htaken : SceneHost.objectAnimation g i = some (g.tables.stock.firstMoving origins[i] : Int) :=
    hrooted.objectAnimation?_eq horigin
  refine ⟨origins[i], horigin, hrooted.lt_size (List.getElem_mem hlt), htaken, ?own, fun s w hs hpart hobject hw => ?lines⟩
  case own => rw [htaken, ← Stock.firstMoving_eq_iff, Option.some.injEq, Int.ofNat_inj]
  case lines =>
    subst hs
    rw [objectLine_new hpart hobject htaken hw, ← Stock.le_firstMoving_iff]
    exact ⟨fun hnew => if_neg (by omega), fun hold => if_pos (by omega)⟩

end Brought

/-! ### An object without motions -/

/-- A movie with one object, whose bank is another one. -/
def motionlessMovie : ByteArray := Bytes.ofList
  [0x4D, 0x35, 6, 0, 0x65, 0x2E, 0x73, 0x70, 0x72, 0, 1, 0, 0, 0, 0, 3, 0, 2, 0, 0x4F, 0, 0xB8, 0x0B, 3, 0, 0, 0,
    4, 0, 12, 0, 12, 0, 0, 0, 0x70, 0x17, 5, 0, 0, 0, 1, 0]

/-- That movie with a bank without motions, and a movie with a bank of one. -/
def motionlessFiles : DataDir where
  root := "DATA"
  files := [⟨"SCN/e.mov", motionlessMovie⟩, ⟨"SCN/e.spr", Bytes.ofList [0x53, 0x35, 0, 0]⟩, ⟨"SCN/a.mov", demoMovie⟩,
    ⟨"SCN/a.spr", demoBank⟩]

noncomputable def motionlessDemo : Game := { demoGame demoFiles "-01.SCN" with data := motionlessFiles }

/-- A scene with the first movie. -/
noncomputable def firstDemo : Game := after (loadMovie "e.mov") (SceneHost.expectMovie motionlessDemo)

/-- In the next scene the movie is kept. -/
noncomputable def keptDemo : Game := after (dropBehind 0) firstDemo

/-- There the other one is loaded. -/
noncomputable def secondDemo : Game := after (loadMovie "a.mov") (SceneHost.expectMovie keptDemo)

/-- In a section about the object that comes then, a variable of it is to be set. -/
def inSection (g : Game) : Description Game where
  tokens := Tokenizer.ofText "[1] 5".toList
  part := .newObject
  object := some 0
  kept := 1
  loading := true
  host := g

theorem passes_motionlessDemo :
    passes (loadMovie "e.mov") (fun g =>
      decide (g.tables.objectsCount = 1) &&
      passes (dropBehind 0) (fun g =>
        decide (g.tables.objectsCount = 1) &&
        passes (loadMovie "a.mov") (fun g =>
          decide (g.tables.objectsCount = 1 ∧ g.tables.objectAnimation? 0 = some 1 ∧ (g.tables.object 0).vars[0] = 0) &&
          passes (objectLine "Memory" : Description.M Game GameError Unit)
            (fun s => decide ((s.host.tables.object 0).vars[0] = 5)) (inSection g))
          (SceneHost.expectMovie g)) g)
      (SceneHost.expectMovie motionlessDemo) = true := by
  decide +kernel

/-- What the demo comes to. -/
structure MotionlessRun : Prop where
  first : loadMovie "e.mov" (SceneHost.expectMovie motionlessDemo) = .ok () firstDemo
  one : firstDemo.tables.objectsCount = 1
  drop : dropBehind 0 firstDemo = .ok () keptDemo
  still : keptDemo.tables.objectsCount = 1
  second : loadMovie "a.mov" (SceneHost.expectMovie keptDemo) = .ok () secondDemo
  taken : secondDemo.tables.objectsCount = 1 ∧ secondDemo.tables.objectAnimation? 0 = some 1 ∧
    (secondDemo.tables.object 0).vars[0] = 0
  set : ∃ s, (objectLine "Memory" : Description.M Game GameError Unit) (inSection secondDemo) = .ok () s ∧
    (s.host.tables.object 0).vars[0] = 5

theorem motionlessRun : MotionlessRun := by
  obtain ⟨_, hfirst, h⟩ := of_passes passes_motionlessDemo
  rw [← firstDemo] at hfirst h
  obtain ⟨hone, h⟩ := Bool.and_eq_true_iff.mp h
  obtain ⟨_, hdrop, h⟩ := of_passes h
  rw [← keptDemo] at hdrop h
  obtain ⟨hstill, h⟩ := Bool.and_eq_true_iff.mp h
  obtain ⟨_, hsecond, h⟩ := of_passes h
  rw [← secondDemo] at hsecond h
  obtain ⟨htaken, h⟩ := Bool.and_eq_true_iff.mp h
  obtain ⟨_, hset, h⟩ := of_passes h
  exact {
    first := hfirst
    one := of_decide_eq_true hone
    drop := hdrop
    still := of_decide_eq_true hstill
    second := hsecond
    taken := of_decide_eq_true htaken
    set := ⟨_, hset, of_decide_eq_true h⟩ }

/-- The object is one of the movie that is kept. -/
theorem brought_secondDemo : Brought [0] secondDemo := by
  have hrun := motionlessRun
  have hempty : Brought [] motionlessDemo := .empty (congrArg SceneTables.stock (show motionlessDemo.tables = {} from rfl))
  have hfirst := hempty.expectMovie.load hrun.first
  rw [hrun.one] at hfirst
  have hkept := Brought.drop (show Brought [0] firstDemo from hfirst) hrun.drop
  rw [hrun.still] at hkept
  have hcount (g : Game) : (SceneHost.expectMovie g : Game).tables.objectsCount = g.tables.objectsCount := rfl
  have hsecond := Brought.load (show Brought [0] keptDemo from hkept).expectMovie hrun.second
  rw [hrun.taken.1, hcount, hrun.still] at hsecond
  exact hsecond

/-- The object of the movie that is kept is taken for one of the other movie, and passes for new. -/
theorem Brought.taken_for_secondDemo : ∃ a, ([0] : List Nat)[0]? = some a ∧ secondDemo.tables.stock.firstMoving a = 1 ∧
    (objectLine "Memory" : Description.M Game GameError Unit) (inSection secondDemo) =
      (objectProperty 0 "Memory" : Description.M Game GameError Unit) (inSection secondDemo) := by
  have hbrought := brought_secondDemo
  obtain ⟨hone, hnext, -⟩ := motionlessRun.taken
  generalize secondDemo = g at hbrought hone hnext ⊢
  obtain ⟨a, ha, -, htaken, -, hlines⟩ := hbrought.taken_for (i := 0) (by omega)
  have hmoving : g.tables.stock.firstMoving a = 1 := by
    have hsame : (g.tables.stock.firstMoving a : Int) = 1 := Option.some.inj (htaken.symm.trans hnext)
    omega
  have hpasses : g.tables.stock.PassesForNew 1 a := Stock.le_firstMoving_iff.mp (Nat.le_of_eq hmoving.symm)
  exact ⟨a, ha, hmoving, (hlines (inSection g) "Memory" rfl rfl rfl (by decide)).1 hpasses⟩

/-- An object of a movie that is kept and has no motions is taken for one of the movie behind that, and what a section for
new objects says of it is done. -/
theorem Brought.not_always_own : ∃ (origins : List Nat) (g : Game) (s t : Description Game), Brought origins g ∧
    0 < g.tables.objectsCount ∧ origins[0]? = some 0 ∧ SceneHost.objectAnimation g 0 ≠ some 0 ∧
    (s.host = g ∧ s.part = .newObject ∧ s.object = some 0 ∧ 0 < s.kept) ∧
    (objectLine "Memory" : Description.M Game GameError Unit) s = .ok () t ∧
    (t.host.tables.object 0).vars ≠ (g.tables.object 0).vars := by
  have hbrought := brought_secondDemo
  obtain ⟨hone, htaken, hbefore⟩ := motionlessRun.taken
  obtain ⟨t, ht, hafter⟩ := motionlessRun.set
  generalize secondDemo = g at hbrought hone htaken hbefore ht
  refine ⟨[0], g, inSection g, t, hbrought, by omega, rfl, ?_, ⟨rfl, rfl, rfl, Nat.zero_lt_one⟩, ht, fun hsame => ?_⟩
  · change g.tables.objectAnimation? 0 ≠ some 0
    rw [htaken]
    decide
  · rw [hsame, hbefore] at hafter
    exact absurd hafter (by decide)

end Game

end Adventure
