import Adventure.Proofs.Game.Building
import Adventure.Proofs.Game.Restoring
import Adventure.Proofs.Scene.Movies

/-! Going from scene to scene. What a section of movies leaves in the tables is what its movies make
of empty tables, whichever animations were loaded before. -/

namespace Adventure

open Description

namespace Game

/-! ### Games without faults -/

/-- As long as nothing fails, the tables are what some movies make of empty ones. -/
theorem built_law :
    StockLaw (fun data s => s.Partitioned ∧ ∃ names, s.Built data names) fun _ _ => True where
  fails _ := trivial
  empty _ := ⟨Stock.partitioned_empty, [], Stock.Built.none rfl⟩
  keepUpTo h i := by
    obtain ⟨hs, names, hb⟩ := h
    exact ⟨hs.keepUpTo i, _, hb.keepUpTo i⟩
  append h hmovie hbank hfits := by
    obtain ⟨hs, names, hb⟩ := h
    exact ⟨hs.started.append _ hfits, _,
      (hb.started hs).load (Stock.load?_eq_some.mpr ⟨_, _, hmovie, hbank, hfits, rfl⟩)⟩
  stopped _ _ := trivial
  counts h n := by
    obtain ⟨hs, names, hb⟩ := h
    exact ⟨hs.counts n, names, hb.counts n⟩
  loads h _ hl := by
    obtain ⟨hs, names, hb⟩ := h
    exact ⟨hs.loads hl, names, hb.loads _⟩

/-- The games that come of starting one and asking it to do things, none of which fails. The files
stay as they are; saved games, the stage with its input, the seed and variables can be changed in
between. -/
inductive Faultless : Game → Prop
  | start {settings : Settings} {data : DataDir} {saves : SaveFolder} {stage : Stage} {seed : UInt16} {g : Game}
    (h : Game.start settings data saves stage seed = .ok g) : Faultless g
  | call {g g' : Game} (hg : Faultless g) (c : Call) (h : c.perform g = .ok () g') : Faultless g'
  | outside {g : Game} (hg : Faultless g) (saves : SaveFolder) (stage : Stage) (random : Random) (vars : Vars) :
    Faultless { g with saves, stage, random, vars }

theorem Faultless.built {g : Game} (h : Faultless g) :
    g.tables.stock.Partitioned ∧ ∃ names, g.tables.stock.Built g.data names := by
  induction h with
  | start h =>
    rw [(start_fresh h).2]
    exact ⟨Stock.partitioned_empty, [], Stock.Built.none rfl⟩
  | @call g g' _ c h ih => exact (built_law.keeps_perform c g).of_ok h ih
  | outside _ _ _ _ _ ih => exact ih

/-! ### Up to the movies of a scene -/

/-- The animations are those that they were, and the tables have what is theirs. -/
structure Untouched (s t : Description Game) : Prop where
  kept : t.kept = s.kept
  loading : t.loading = s.loading
  data : t.host.data = s.host.data
  stock : t.host.tables.stock = s.host.tables.stock ∨
    ∃ loaded, loaded ≠ Loaded.nothing ∧ t.host.tables.stock = { s.host.tables.stock with loaded }

namespace Untouched

theorem of_ground {s t : Description Game} (hkept : t.kept = s.kept) (hloading : t.loading = s.loading)
    (h : t.host.ground = s.host.ground) : Untouched s t :=
  ⟨hkept, hloading, congrArg Ground.data h, Or.inl (congrArg Ground.stock h)⟩

theorem trans {s t u : Description Game} (h : Untouched s t) (h' : Untouched t u) : Untouched s u := by
  refine ⟨h'.kept.trans h.kept, h'.loading.trans h.loading, h'.data.trans h.data, ?_⟩
  rcases h'.stock with h' | ⟨loaded, hl, h'⟩
  · rw [h']
    exact h.stock
  · refine Or.inr ⟨loaded, hl, ?_⟩
    rcases h.stock with h | ⟨_, _, h⟩
    · rw [h', h]
    · rw [h', h]

theorem of_stays {α : Type} {m : M α} (hm : Stays m) :
    Within Untouched (fun _ _ => True) (runHost m : Description.M Game GameError α) := by
  intro s
  have h := hm s.host
  simp only [Leads, runHost] at h ⊢
  cases hs : m s.host with
  | ok a g =>
    rw [hs] at h
    exact of_ground rfl rfl h
  | error e g => trivial

theorem loadScreen (name : String) :
    Within Untouched (fun _ _ => True) (runHost (Game.loadScreen name) : Description.M Game GameError Unit) := by
  intro s
  have h := loadScreen_leads name s.host
  simp only [Leads, runHost] at h ⊢
  cases hs : Game.loadScreen name s.host with
  | ok a g =>
    rw [hs] at h
    obtain ⟨loaded, hl, hg⟩ := h
    exact ⟨rfl, rfl, congrArg Ground.data hg, Or.inr ⟨loaded, hl, congrArg Ground.stock hg⟩⟩
  | error e g => trivial

theorem acts : QuietActs Untouched fun _ _ => True where
  chains := ⟨fun _ => of_ground rfl rfl rfl, fun _ => trivial, trans, fun _ _ => trivial⟩
  aside _ _ _ _ := of_ground rfl rfl rfl
  setSceneNumber _ _ := ⟨rfl, rfl, rfl, Or.inl rfl⟩
  loadScreen := loadScreen
  setMusic name s := of_ground rfl rfl (ground_setMusic name s.host)
  setTrack _ _ := of_ground rfl rfl rfl
  modifyObject _ _ _ _ := of_ground rfl rfl rfl
  setClass _ _ _ := of_ground rfl rfl rfl
  setBagPosition _ _ _ := of_ground rfl rfl rfl
  addBagEntry name file s _ := of_stays (Stays.addBagEntry name file) s
  addNextScene n := of_stays (Stays.addNextScene n)
  pushBox _ _ _ _ := of_ground rfl rfl rfl

end Untouched

/-! ### Movies one by one -/

/-- The tables hang together, and are what the movies of these names make of empty ones; if things are
in order, so are the slots of objects. -/
structure Carries (files : DataDir) (names : List String) (order : Prop) (g : Game) : Prop where
  data : g.data = files
  partitioned : g.tables.stock.Partitioned
  built : g.tables.stock.Built files names
  inLine : order → g.tables.stock.InLine

variable {files : DataDir} {names done : List String} {order : Prop} {g g' : Game}

theorem Carries.loadMovie {name : String} (h : Carries files done order g) (hg : Game.loadMovie name g = .ok () g') :
    Carries files (done ++ [name]) order g' := by
  obtain ⟨movie, bank, hmovie, hbank, hfits, hroom, hground⟩ := (loadMovie_leads name g).of_ok hg
  have hstock : g'.tables.stock = g.tables.stock.started.append name movie bank := congrArg Ground.stock hground
  rw [h.data] at hmovie hbank
  refine ⟨(congrArg Ground.data hground).trans h.data, ?_, ?_, fun ho => ?_⟩
  · rw [hstock]
    exact h.partitioned.started.append _ hfits
  · rw [hstock]
    exact (h.built.started h.partitioned).load (Stock.load?_eq_some.mpr ⟨_, _, hmovie, hbank, hfits, rfl⟩)
  · have hline := (h.inLine ho).started h.partitioned
    rw [hstock]
    exact hline.append (hroom hline.few) bank

theorem Carries.expectMovie (h : Carries files done order g) : Carries files done order (SceneHost.expectMovie g) where
  data := h.data
  partitioned := h.partitioned.loads (by decide : Loaded.background ≠ .nothing)
  built := h.built.loads _
  inLine ho := (h.inLine ho).loads _

theorem Carries.loadMovies (h : Carries files done order g) (hg : (Description.loadMovies names : M Unit) g = .ok () g') :
    Carries files (done ++ names) order g' := by
  induction names generalizing done g with
  | nil =>
    cases hg
    rwa [List.append_nil]
  | cons name names ih =>
    obtain ⟨_, g₁, hname, hrest⟩ := bind_eq_ok.mp hg
    rw [List.append_cons]
    exact ih (h.loadMovie hname) hrest

/-- Dropping everything leaves empty tables. -/
theorem carries_dropAll (hg : Game.dropBehind (-1) g = .ok () g') : Carries g.data [] order g' := by
  obtain ⟨s, hground, ⟨-, rfl⟩ | ⟨i, hi, -⟩⟩ := (dropBehind_leads (-1) g).of_ok hg
  · have hstock : g'.tables.stock = Stock.empty := congrArg Ground.stock hground
    refine ⟨congrArg Ground.data hground, ?_, ?_, fun _ => ?_⟩
    · exact hstock ▸ Stock.partitioned_empty
    · exact hstock ▸ Stock.Built.none rfl
    · exact hstock ▸ Stock.InLine.empty
  · omega

/-- Dropping what is behind the first animations leaves what their movies make. -/
theorem Carries.dropBehind {n : Nat} (h : Carries files done order g)
    (hg : Game.dropBehind ((n : Int) - 1) g = .ok () g') : Carries files (done.take n) order g' := by
  cases n with
  | zero =>
    rw [← h.data]
    exact carries_dropAll hg
  | succ n =>
    have hn : ((n + 1 : Nat) : Int) - 1 = n := by omega
    rw [hn] at hg
    obtain ⟨s, hground, ⟨hi, -⟩ | ⟨i, hi, rfl⟩⟩ := (dropBehind_leads n g).of_ok hg
    · omega
    · have hin : i.val = n := Int.ofNat_inj.mp hi
      have hstock : g'.tables.stock = g.tables.stock.keepUpTo i := congrArg Ground.stock hground
      refine ⟨(congrArg Ground.data hground).trans h.data, ?_, ?_, fun ho => ?_⟩
      · exact hstock ▸ h.partitioned.keepUpTo i
      · rw [hstock, ← hin]
        exact h.built.keepUpTo i
      · exact hstock ▸ (h.inLine ho).keepUpTo i

/-! ### A whole section -/

theorem Carries.congr {names' : List String} (h : Carries files names order g)
    (hn : names.map Text.lower = names'.map Text.lower) : Carries files names' order g :=
  ⟨h.data, h.partitioned, h.built.congr hn, h.inLine⟩

/-- What a section leaves is what its movies make. -/
theorem Carries.fetch (h : Carries files done order g) (hg : (Description.fetch 0 names : M Unit) g = .ok () g') :
    Carries files names order g' := by
  have htitles : SceneHost.animations g = done.map Text.lower := h.built.titles_eq
  generalize hc : commonNames (SceneHost.animations g) names = c
  have hkept : (done.take c).map Text.lower = (names.take c).map Text.lower := by
    rw [← hc, ← take_commonNames, htitles, ← List.map_take, List.map_map]
    exact List.map_congr_left fun a _ => (Text.lower_lower a).symm
  have hcommon : commonNames ((SceneHost.animations g).drop 0) names = c := hc
  rw [fetch_eq hcommon, Nat.zero_add] at hg
  by_cases hrest : names.drop c = []
  · rw [hrest, reload_nil] at hg
    have hnames : names.take c = names := by rw [← List.append_nil (names.take c), ← hrest, List.take_append_drop]
    exact (h.dropBehind hg).congr (hnames ▸ hkept)
  · obtain ⟨g₁, hdrop, hload⟩ := of_reload hrest hg
    have hfirst : Carries files (names.take c) order g₁ := by
      split at hdrop
      · rename_i hempty
        have hnone : done = [] := by simpa [hempty] using htitles.symm
        subst hdrop
        refine h.congr ?_
        simpa only [hnone, List.take_nil] using hkept
      · exact (h.dropBehind hdrop).congr hkept
    have hall := hfirst.expectMovie.loadMovies hload
    rwa [List.take_append_drop] at hall

/-- Loads movies into empty tables. -/
def loadAfresh (names : List String) : M Unit := do
  dropBehind (-1)
  modify SceneHost.expectMovie
  loadMovies names

theorem carries_loadAfresh (hg : loadAfresh names g = .ok () g') : Carries g.data names True g' := by
  obtain ⟨_, g₁, hdrop, hload⟩ := bind_eq_ok.mp hg
  exact (carries_dropAll hdrop).expectMovie.loadMovies hload

/-- Where the first section of movies starts, the tables are as they were before the description. -/
theorem Carries.early {text : List Char} {s : Description Game} (h : Carries files done order g) (hs : Early text g s) :
    s.kept = 0 ∧ s.loading = false ∧ s.host.tables.animations = g.tables.animations ∧ Carries files done order s.host := by
  have huntouched : Untouched (opening text g) s := hs.quiet Untouched.acts
  refine ⟨huntouched.kept, huntouched.loading, ?_⟩
  have hdata : s.host.data = files := huntouched.data.trans h.data
  rcases huntouched.stock with hstock | ⟨loaded, hl, hstock⟩
  · replace hstock : s.host.tables.stock = g.tables.stock := hstock
    refine ⟨congrArg Stock.animations hstock, hdata, ?_, ?_, fun ho => ?_⟩
    · exact hstock ▸ h.partitioned
    · exact hstock ▸ h.built
    · exact hstock ▸ h.inLine ho
  · replace hstock : s.host.tables.stock = { g.tables.stock with loaded } := hstock
    refine ⟨congrArg Stock.animations hstock, hdata, ?_, ?_, fun ho => ?_⟩
    · exact hstock ▸ h.partitioned.loads hl
    · exact hstock ▸ h.built.loads loaded
    · exact hstock ▸ (h.inLine ho).loads loaded

/-- The first section of movies of a description keeps the animations that its names share with those
that are loaded, and reloads the rest. If it succeeds, the animations are those of its names, and the
tables are those that the same movies make of empty tables, save for the slots of objects; these are
the same, too, if the objects were in line. -/
theorem Faultless.movies_afresh {text : List Char} {s t : Description Game} (hg : Faultless g) (hs : Early text g s)
    (hpart : s.part = .movies) (hsection : MoviesSection s names t) :
    (s.host.tables.animations = g.tables.animations ∧ (Description.fetch 0 names : M Unit) s.host = .ok () t.host) ∧
      t.host.tables.stock.titles = names.map Text.lower ∧
      ∀ f f' : Game, f.data = g.data → loadAfresh names f = .ok () f' →
        t.host.tables.stock.bare = f'.tables.stock.bare ∧
          (g.tables.stock.InLine → t.host.tables.animations = f'.tables.animations) := by
  obtain ⟨hpartitioned, done, hbuilt⟩ := hg.built
  have hcarries : Carries g.data done g.tables.stock.InLine g := ⟨rfl, hpartitioned, hbuilt, id⟩
  obtain ⟨hkept, hloading, hanimations, hearly⟩ := hcarries.early hs
  have hfetch := hsection.fetches hpart hloading
  rw [hkept] at hfetch
  have hafter := hearly.fetch hfetch
  refine ⟨⟨hanimations, hfetch⟩, hafter.built.titles_eq, fun f f' hdata hafresh => ?_⟩
  have hf := carries_loadAfresh hafresh
  rw [hdata] at hf
  have hbare := hafter.built.unique hf.built
  exact ⟨hbare, fun ho => (hafter.inLine ho).animations_eq (hf.inLine trivial) hbare⟩

/-! ### A scene with one movie -/

theorem readResource_ok {α : Type} {decode : ByteArray → Except ResourceError α} {name : String} {a : α} {g : Game}
    (h : resource g.data decode name = .ok a) : readResource decode name g = .ok a g := by
  rw [readResource_eq, h]
  rfl

/-- A movie without boxes and objects is put in where it fits. -/
theorem loadMovie_ok {name : String} {movie : Movie} {bank : SpriteBank} {g : Game}
    (hmovie : resource g.data Movie.decode name = .ok movie)
    (hbank : resource g.data SpriteBank.decode (Movie.bankPath name movie.bankName) = .ok bank)
    (hboxes : movie.boxes = []) (hobjects : movie.objects = []) (hloaded : g.tables.loaded ≠ .nothing)
    (hfits : g.tables.stock.Fits movie bank) : ∃ g', Game.loadMovie name g = .ok () g' := by
  have hbegin : beginMovies movie.backgroundName g = .ok () g := by
    change (if g.tables.loaded = .nothing then _ else pure () : M Unit) g = _
    rw [if_neg hloaded]
    rfl
  obtain ⟨t, hparts, hm, hf⟩ : ∃ t : SceneTables, withTables (do
      SceneTables.addSounds movie.sounds
      SceneTables.addBoxes movie.boxes
      SceneTables.addObjects (Int16.ofNat g.tables.motions.size) movie.objects) g = .ok () { g with tables := t } ∧
        t.motions = g.tables.motions ∧ t.frames = g.tables.frames := by
    have hsounds : SceneTables.addSounds movie.sounds g.tables =
        .ok () { g.tables with sounds := g.tables.sounds ++ movie.sounds.toArray } := by
      change (if maxSounds < g.tables.sounds.size + movie.sounds.length then
        (throw (.full .sounds) : SceneTables.M PUnit) >>= fun _ => modify _ else modify _) g.tables = _
      have hroom : ¬maxSounds < g.tables.sounds.size + movie.sounds.length := Nat.not_lt.mpr hfits.sounds
      rw [if_neg hroom]
      rfl
    refine ⟨{ g.tables with sounds := g.tables.sounds ++ movie.sounds.toArray }, ?_, rfl, rfl⟩
    rw [withTables, hboxes, hobjects, bind_of_ok hsounds]
    rfl
  obtain ⟨u, hu⟩ : ∃ u, SceneTables.addBank g.tables.animations.size bank t = .ok () u := by
    change ∃ u, (if maxMotions < t.motions.size + bank.motions.length then _ else
      if maxFrames < t.frames.size + bank.framesCount then _ else modify _ : SceneTables.M Unit) t = .ok () u
    have hmotions : ¬maxMotions < t.motions.size + bank.motions.length := hm ▸ Nat.not_lt.mpr hfits.motions
    have hframes : ¬maxFrames < t.frames.size + bank.framesCount := hf ▸ Nat.not_lt.mpr hfits.frames
    rw [if_neg hmotions, if_neg hframes]
    exact ⟨_, rfl⟩
  have hread : readResource SpriteBank.decode (Movie.bankPath name movie.bankName) { g with tables := t } =
      .ok bank { g with tables := t } := readResource_ok hbank
  have hbankPut : withTables (SceneTables.addBank g.tables.animations.size bank) { g with tables := t } =
      .ok () { g with tables := u } := by
    rw [withTables, hu]
  obtain ⟨g', hputs⟩ : ∃ g', putMovie name movie g = .ok () g' := by
    change ∃ g', (withTables _ >>= _ : M Unit) g = .ok () g'
    rw [bind_of_ok hparts, bind_of_ok hread, bind_of_ok hbankPut]
    exact ⟨_, rfl⟩
  have hanims : ¬maxAnimations ≤ g.tables.animations.size := Nat.not_le.mpr hfits.animations
  refine ⟨g', ?_⟩
  rw [Game.loadMovie, bind_of_ok (readResource_ok hmovie)]
  change (if maxAnimations ≤ g.tables.animations.size then _ else
    (do beginMovies movie.backgroundName; putMovie name movie) : M Unit) g = _
  rw [if_neg hanims, bind_of_ok hbegin, hputs]
/-- One motion of one empty frame. -/
def demoBank : ByteArray := Bytes.ofList [0x53, 0x35, 1, 0, 0, 0, 0, 0, 0, 0, 0, 0, 0, 0, 0, 0, 0, 0]

/-- The files of a demo with one movie. -/
def movieFiles : DataDir where
  root := "DATA"
  files := [⟨"SCN/-01.SCN", ByteArray.empty⟩, ⟨"SCN/a.mov", demoMovie⟩, ⟨"SCN/a.spr", demoBank⟩,
    ⟨"bermuda.wgp", demoWindow⟩, ⟨"bermuda.spr", demoSprites⟩]

theorem resource_demoMovie : ∃ movie, resource movieFiles Movie.decode "a.mov" = .ok movie ∧ movie.bankName = "a.spr" ∧
    movie.sounds = [] ∧ movie.boxes = [] ∧ movie.objects = [] :=
  ⟨_, rfl, by decide +kernel, rfl, rfl, rfl⟩

theorem resource_demoBank : ∃ bank, resource movieFiles SpriteBank.decode "a.spr" = .ok bank ∧
    bank.motions.length = 1 ∧ bank.framesCount = 1 := ⟨_, rfl, rfl, rfl⟩

/-- Into empty tables the movie is loaded. -/
theorem loadMovie_demoMovie {g : Game} (hdata : g.data = movieFiles) (hstock : g.tables.stock = { Stock.empty with loaded := .background }) :
    ∃ g', Game.loadMovie "a.mov" g = .ok () g' := by
  obtain ⟨movie, hmovie, hname, hsounds, hboxes, hobjects⟩ := resource_demoMovie
  obtain ⟨bank, hbank, hmotions, hframes⟩ := resource_demoBank
  have hpath : Movie.bankPath "a.mov" movie.bankName = "a.spr" := by
    rw [hname]
    decide
  have hloaded : g.tables.loaded = .background := congrArg Stock.loaded hstock
  refine loadMovie_ok (hdata ▸ hmovie) (hpath ▸ hdata ▸ hbank) hboxes hobjects (by rw [hloaded]; decide) ?_
  rw [hstock]
  refine ⟨by decide, ?_, ?_, ?_⟩
  · rw [hmotions]
    decide
  · rw [hframes]
    decide
  · rw [hsounds]
    decide

/-- A scene of one movie. -/
def movieText : List Char := "Movies\na.mov\nMoviesEnd".toList

/-- In a game without animations the movie of that scene is loaded. -/
theorem section_movieText {g g' : Game} (hnone : SceneHost.animations (SceneHost.start g : Game) = [])
    (hload : Game.loadMovie "a.mov" (SceneHost.expectMovie (SceneHost.start g)) = .ok () g') :
    ∃ s t : Description Game, Early movieText g s ∧ s.part = .movies ∧ MoviesSection s ["a.mov"] t ∧ t.host = g' := by
  let opened : Description Game := { opening movieText g with
    tokens := Tokenizer.ofText "a.mov\nMoviesEnd".toList, part := .movies }
  have hs : Early movieText g opened := Early.start.next (fun h => nomatch h) rfl
  have hmovie : (line "a.mov" : Description.M Game GameError Bool)
      { opened with tokens := Tokenizer.ofText "MoviesEnd".toList } =
        .ok true { opened with tokens := Tokenizer.ofText "MoviesEnd".toList, loading := true, host := g' } := by
    rw [line_movies rfl, movieLine, if_neg (by decide)]
    exact movie_first rfl hnone hload
  have hsection : MoviesSection opened ["a.mov"]
      { opened with tokens := ⟨none⟩, part := .top, loading := true, host := g' } :=
    .movie (by decide) rfl hmovie (.ends rfl rfl)
  exact ⟨opened, _, hs, rfl, hsection, rfl⟩

/-- The first movie of a game is loaded, and stays the only one. -/
theorem Faultless.movies_afresh_movieFiles : ∃ (g : Game) (s t : Description Game),
    startDemo movieFiles = .ok g ∧ Early movieText g s ∧ s.part = .movies ∧ MoviesSection s ["a.mov"] t ∧
      t.host.tables.stock.titles = ["a.mov"] ∧
      ∀ f f' : Game, f.data = g.data → loadAfresh ["a.mov"] f = .ok () f' →
        t.host.tables.stock.bare = f'.tables.stock.bare ∧
          (g.tables.stock.InLine → t.host.tables.animations = f'.tables.animations) := by
  obtain ⟨g, hg⟩ := startDemo_ok (by decide : firstScenes.find? movieFiles.contains = some "-01.SCN") rfl rfl
  obtain ⟨hdata, htables⟩ := start_fresh hg
  have hstart : (SceneHost.start g).tables = {} := htables
  have hnone : SceneHost.animations (SceneHost.start g) = [] := by
    change (SceneHost.start g).tables.stock.titles = []
    rw [hstart]
    rfl
  have hexpect : (SceneHost.expectMovie (SceneHost.start g)).tables.stock = { Stock.empty with loaded := .background } := by
    change { (SceneHost.start g).tables.stock with loaded := .background } = _
    rw [hstart]
    rfl
  obtain ⟨g', hg'⟩ := loadMovie_demoMovie (g := SceneHost.expectMovie (SceneHost.start g)) hdata hexpect
  obtain ⟨s, t, hs, hpart, hsection, -⟩ := section_movieText hnone hg'
  exact ⟨g, s, t, hg, hs, hpart, hsection, ((Faultless.start hg).movies_afresh hs hpart hsection).2⟩

/-! ### Objects that are left over -/

theorem faultless_strandedDemo : Faultless strandedDemo := by
  have hstart : Faultless writingDemo :=
    .start (startDemo_eq (by decide : firstScenes.find? writingFiles.contains = some "-01.SCN") rfl rfl)
  obtain ⟨b, hrunning⟩ := writingRun.running
  obtain ⟨-, -, hspoilt, b', hstranded⟩ := frames_spoiltDemo
  have hsaved : Faultless savedDemo := hstart.call (.loadScene "-01.SCN") writingRun.saved
  have hloading : Faultless (loading savedDemo runningDemo) :=
    (hsaved.call .runFrame (Call.runFrame_ok hrunning)).outside _ _ _ _
  exact (hloading.call .runFrame (Call.runFrame_ok hspoilt)).call .runFrame (Call.runFrame_ok hstranded)

/-- Behind the object that is left over the objects of a movie come second; afresh they come first. -/
theorem passes_strandedDemo :
    (passes (Game.loadMovie "a.mov") (fun g => decide (g.tables.animations.toList.map (·.firstObject) = [1]))
        (SceneHost.expectMovie (SceneHost.start strandedDemo)) &&
      passes (loadAfresh ["a.mov"]) (fun g => decide (g.tables.animations.toList.map (·.firstObject) = [0]))
        strandedDemo) = true := by
  decide +kernel

/-- After a saved game with an object has been put in place in a scene without movies, the object is left over,
and a section of movies counts it: what it leaves is not what its movies make of empty tables. -/
theorem Faultless.movies_not_afresh : ∃ (g f' : Game) (s t : Description Game),
    Faultless g ∧ Early movieText g s ∧ s.part = .movies ∧ MoviesSection s ["a.mov"] t ∧
      loadAfresh ["a.mov"] g = .ok () f' ∧ t.host.tables.animations ≠ f'.tables.animations := by
  obtain ⟨hmovie, hafresh⟩ := Bool.and_eq_true_iff.mp passes_strandedDemo
  obtain ⟨_, hmovie, hsecond⟩ := of_passes hmovie
  obtain ⟨_, hafresh, hfirst⟩ := of_passes hafresh
  have hnone : SceneHost.animations (SceneHost.start strandedDemo) = [] := by
    have hempty : strandedDemo.tables.animations = #[] := Array.size_eq_zero_iff.mp writingRun.object.1
    change strandedDemo.tables.animations.toList.map (·.name) = []
    rw [hempty]
    rfl
  obtain ⟨s, t, hs, hpart, hsection, hhost⟩ := section_movieText hnone hmovie
  refine ⟨strandedDemo, _, s, t, faultless_strandedDemo, hs, hpart, hsection, hafresh, fun hsame => ?_⟩
  rw [hhost] at hsame
  have hequal := (of_decide_eq_true hsecond).symm.trans
    ((congrArg (fun a : Array Animation => a.toList.map (·.firstObject)) hsame).trans (of_decide_eq_true hfirst))
  exact absurd hequal (by decide)

end Game

end Adventure
