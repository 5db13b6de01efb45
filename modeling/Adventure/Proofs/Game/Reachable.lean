import Adventure.Proofs.Game.Calls
import Adventure.Proofs.Game.Partition
import Adventure.Proofs.Game.Starting

/-! The tables of movies hang together in every game that can come to be. -/

namespace Adventure.Game

theorem partitioned_law : StockLaw (fun _ s => s.Partitioned) fun _ s => s.Partitioned where
  fails := id
  empty _ := Stock.partitioned_empty
  keepUpTo := Stock.Partitioned.keepUpTo
  append h _ _ hfits := h.started.append _ hfits
  stopped h hs := h.stopped hs
  counts := Stock.Partitioned.counts
  loads h _ hl := h.loads hl

/-- The games that come of starting one and asking it to do things, whether they succeed or
fail. Files, the stage with its input, the seed and variables can be changed in between. -/
inductive Reachable : Game → Prop
  | start {settings : Settings} {data : DataDir} {saves : SaveFolder} {stage : Stage} {seed : UInt16} {g : Game}
    (h : Game.start settings data saves stage seed = .ok g) : Reachable g
  | call {g : Game} (hg : Reachable g) (c : Call) : Reachable (after c.perform g)
  | outside {g : Game} (hg : Reachable g) (data : DataDir) (saves : SaveFolder) (stage : Stage) (random : Random)
    (vars : Vars) : Reachable { g with data, saves, stage, random, vars }

/-- No call changes the first scene. -/
theorem firstScene_acts : CallActs (fun g g' : Game => g'.firstScene = g.firstScene)
    fun g g' => g'.firstScene = g.firstScene where
  chains := Chains.same Game.firstScene
  base h := congrArg Base.firstScene h
  loads _ _ _ := rfl
  dropBehind anim g := by
    refine (dropBehind_leads anim g).mono (fun _ _ h => ?_) fun _ h => congrArg Game.firstScene h
    obtain ⟨_, h, -⟩ := h
    exact congrArg Ground.firstScene h
  loadBackground name g :=
    (loadBackground_leads name g).mono (fun _ _ h => congrArg Ground.firstScene h) fun _ h => congrArg Game.firstScene h
  loadMovie name g := by
    refine (loadMovie_leads name g).mono (fun _ _ h => ?_) fun _ h => ?_
    · obtain ⟨_, _, _, _, _, _, h⟩ := h
      exact congrArg Ground.firstScene h
    · obtain ⟨_, _, h⟩ := h
      exact congrArg Ground.firstScene h
  restore _ _ := by simp only [restore]
  restart _ := rfl

theorem Reachable.firstScene_mem {g : Game} (h : Reachable g) : g.firstScene ∈ firstScenes := by
  induction h with
  | start h =>
    obtain ⟨scene, hscene, ui, rfl⟩ := eq_begun h
    exact hscene
  | @call g _ c ih =>
    exact ((firstScene_acts.within_perform c g).mono (fun _ _ h => h ▸ ih) fun _ h => h ▸ ih).after
  | outside _ _ _ _ _ _ ih => exact ih

theorem Call.runFrame_ok {g g' : Game} {b : Bool} (h : Game.runFrame g = .ok b g') : Call.runFrame.perform g = .ok () g' :=
  bind_of_ok h

theorem Reachable.frame {g : Game} (hg : Reachable g) : Reachable (after Game.runFrame g) :=
  after_value Game.runFrame () g ▸ hg.call .runFrame

theorem Reachable.ok {g g' : Game} (hg : Reachable g) (c : Call) (h : c.perform g = .ok () g') : Reachable g' :=
  after_of_ok h ▸ hg.call c

/-- In every game that can come to be, the runs of motions of the animations tile the motions, and
those of frames of the motions the frames; a motion names the animation whose run it is in; the
runs of sounds go up; and while nothing is loaded there are no animations, motions and frames. -/
theorem Reachable.partitioned {g : Game} (h : Reachable g) : g.tables.stock.Partitioned := by
  induction h with
  | start h => rw [(start_fresh h).2]; exact Stock.partitioned_empty
  | @call g _ c ih => exact ((partitioned_law.keeps_perform c g).mono (fun _ _ h => h ih) fun _ h => h ih).after
  | outside _ _ _ _ _ _ ih => exact ih

/-- The files that a demo needs to start. -/
def demoFiles : DataDir where
  root := "DATA"
  files := [⟨"SCN/-01.SCN", ByteArray.empty⟩, ⟨"bermuda.wgp", demoWindow⟩, ⟨"bermuda.spr", demoSprites⟩]

theorem Reachable.partitioned_demoFiles : ∃ g,
    Game.start { demo := some true } demoFiles ⟨".", some []⟩ (Stage.ofRate 22050) 1 = .ok g ∧
      (after (Call.loadScene "-01.SCN").perform g).tables.stock.Partitioned := by
  obtain ⟨g, hg⟩ := startDemo_ok (by decide : firstScenes.find? demoFiles.contains = some "-01.SCN") rfl rfl
  exact ⟨g, hg, ((Reachable.start hg).call (.loadScene "-01.SCN")).partitioned⟩

end Adventure.Game
