import Adventure.Proofs.Abreast
import Adventure.Scene.Description

/-! Scene descriptions that are read by hosts side by side. If two hosts look the same to a
description and do the same at its command, the whole description does the same to both of them. -/

namespace Adventure

namespace Description

variable {H ε : Type}

/-- A description that has been read as far by either host. -/
def Alike (R : H → H → Prop) (s t : Description H) : Prop := R s.host t.host ∧ s = { t with host := s.host }

variable {R : H → H → Prop} {α β : Type} {m n : M H ε α}

/-- A step of reading that comes to the same. -/
def Blind (R : H → H → Prop) (m : M H ε α) : Prop := Abreast (Alike R) (Alike R) m m

namespace Blind

theorem value (a : α) : Blind R (pure a : M H ε α) := Abreast.value a

theorem bind {f : α → M H ε β} (hm : Blind R m) (hf : ∀ a, Blind R (f a)) : Blind R (m >>= f) := Abreast.bind hm hf

theorem ite {c : Prop} [Decidable c] (hm : Blind R m) (hn : Blind R n) : Blind R (if c then m else n) := Abreast.ite hm hn

/-- A step that changes nothing of the host. -/
theorem note {f : Description H → Description H} (hhost : ∀ s, (f s).host = s.host)
    (hf : ∀ s h, f { s with host := h } = { f s with host := h }) : Blind R (modify f : M H ε PUnit) := by
  refine Abreast.modifies fun s t ⟨hR, hs⟩ => ⟨?_, ?_⟩
  · rw [hhost, hhost]
    exact hR
  · rw [hs, hf]

/-- What has been read so far but for the host. -/
theorem look {f : Description H → M H ε α} (hread : ∀ s h, f { s with host := h } = f s) (hf : ∀ s, Blind R (f s)) :
    Blind R (get >>= f) := Abreast.look fun s t ⟨_, hs⟩ => by
  rw [hs, hread]
  exact hf t

/-- A look at the host that sees nothing that may differ. -/
theorem lookHost {f : H → M H ε α} (hread : ∀ {h h'}, R h h' → f h = f h') (hf : ∀ h, Blind R (f h)) :
    Blind R (theHost >>= f) := Abreast.look fun s t ⟨hR, _⟩ => by
  rw [hread hR]
  exact hf _

theorem onTokens (f : Tokenizer → α × Tokenizer) : Blind R (onTokens f : M H ε α) := by
  refine Abreast.modifiesGet fun s t ⟨hR, hs⟩ => ?_
  rw [hs]
  exact ⟨rfl, hR, rfl⟩

theorem onHost {f : H → H} (hf : ∀ {h h'}, R h h' → R (f h) (f h')) : Blind R (onHost f : M H ε Unit) :=
  Abreast.modifies fun s _ ⟨hR, hs⟩ => ⟨hf hR, congrArg (fun u : Description H => { u with host := f s.host }) hs⟩

theorem runHost {m : EStateM ε H α} (hm : Abreast R R m m) : Blind R (runHost m) := by
  intro s t ⟨hR, hs⟩
  have hmatch := hm _ _ hR
  simp only [Description.runHost]
  cases hms : m s.host with
  | ok a h => cases hmt : m t.host with
    | ok b h' =>
      rw [hms, hmt] at hmatch
      exact ⟨hmatch.1, hmatch.2, congrArg (fun u : Description H => { u with host := h }) hs⟩
    | error e h' =>
      rw [hms, hmt] at hmatch
      exact hmatch.elim
  | error e h => cases hmt : m t.host with
    | ok b h' =>
      rw [hms, hmt] at hmatch
      exact hmatch.elim
    | error e' h' =>
      rw [hms, hmt] at hmatch
      exact hmatch

theorem skipLine : Blind R (skipLine : M H ε Unit) := Abreast.discard (onTokens _)

theorem word : Blind R (word : M H ε String) := (onTokens _).bind fun _ => value _

theorem enter (part : Section) : Blind R (enter part : M H ε Unit) := note (fun _ => rfl) fun _ _ => rfl

end Blind

variable [SceneHost H ε]

/-- A relation of hosts that look the same to a description, and go on to look the same. -/
structure HostsAbreast (R : H → H → Prop) : Prop where
  start : ∀ {h h'}, R h h' → R (SceneHost.start h) (SceneHost.start h')
  var : ∀ {h h'}, R h h' → ∀ i, SceneHost.var h i = SceneHost.var h' i
  sceneNumber : ∀ {h h'}, R h h' → SceneHost.sceneNumber h = SceneHost.sceneNumber h'
  setSceneNumber : ∀ {h h'}, R h h' → ∀ n, R (SceneHost.setSceneNumber n h) (SceneHost.setSceneNumber n h')
  animations : ∀ {h h'}, R h h' → SceneHost.animations h = SceneHost.animations h'
  dropBehind : ∀ i, Abreast R R (SceneHost.dropBehind i : EStateM ε H Unit) (SceneHost.dropBehind i)
  expectMovie : ∀ {h h'}, R h h' → R (SceneHost.expectMovie h) (SceneHost.expectMovie h')
  loadMovie : ∀ name, Abreast R R (SceneHost.loadMovie name : EStateM ε H Unit) (SceneHost.loadMovie name)
  loadScreen : ∀ name, Abreast R R (SceneHost.loadScreen name : EStateM ε H Unit) (SceneHost.loadScreen name)
  setMusic : ∀ {h h'}, R h h' → ∀ name, R (SceneHost.setMusic name h) (SceneHost.setMusic name h')
  setTrack : ∀ {h h'}, R h h' → ∀ n, R (SceneHost.setTrack n h) (SceneHost.setTrack n h')
  findObject : ∀ {h h'}, R h h' → ∀ name, SceneHost.findObject h name = SceneHost.findObject h' name
  modifyObject : ∀ {h h'}, R h h' → ∀ i f, R (SceneHost.modifyObject i f h) (SceneHost.modifyObject i f h')
  objectAnimation : ∀ {h h'}, R h h' → ∀ i, SceneHost.objectAnimation h i = SceneHost.objectAnimation h' i
  status : ∀ {h h'}, R h h' → ∀ i, SceneHost.status? h i = SceneHost.status? h' i
  setBagPosition : ∀ {h h'}, R h h' → ∀ x y, R (SceneHost.setBagPosition x y h) (SceneHost.setBagPosition x y h')
  hasBagEntry : ∀ {h h'}, R h h' → ∀ name, SceneHost.hasBagEntry h name = SceneHost.hasBagEntry h' name
  addBagEntry : ∀ name file,
    Abreast R R (SceneHost.addBagEntry name file : EStateM ε H Unit) (SceneHost.addBagEntry name file)
  addNextScene : ∀ s, Abreast R R (SceneHost.addNextScene s : EStateM ε H Unit) (SceneHost.addNextScene s)
  boxCount : ∀ {h h'}, R h h' → ∀ group, SceneHost.boxCount h group = SceneHost.boxCount h' group
  box : ∀ {h h'}, R h h' → ∀ group i, SceneHost.box h group i = SceneHost.box h' group i
  pushBox : ∀ {h h'}, R h h' → ∀ group b, R (SceneHost.pushBox group b h) (SceneHost.pushBox group b h')

namespace Blind

theorem fault (e : SceneError) : Blind R (fault e : M H ε α) := Abreast.fault _

/-- What may fail first. -/
theorem checkedFirst {c : Prop} [Decidable c] {e : SceneError} {m : M H ε α} (hm : Blind R m) : Blind R (do
    if c then Description.fault e
    m) := ite ((fault e).bind fun _ => hm) hm

theorem checked (f : Tokenizer → Except TokenError α × Tokenizer) : Blind R (checked f : M H ε α) := by
  refine (onTokens f).bind fun r => ?_
  split
  · exact value _
  · exact fault _

theorem int : Blind R (int : M H ε Int) := checked _

theorem arrayIndex : Blind R (arrayIndex : M H ε Int) := checked _

theorem coord : Blind R (coord : M H ε (Int16 × Int16)) := checked _

theorem number (w : String) : Blind R (number w : M H ε Int) := by
  unfold Description.number
  split
  · exact value _
  · exact fault _

/-- A word that has no meaning where it stands. -/
theorem unexpected (w : String) : Blind R (do Description.fault (.unexpected w (← get).part) : M H ε α) :=
  look (fun _ _ => rfl) fun _ => fault _

theorem boxColors (b : SceneBox) : Blind R (boxColors b : M H ε SceneBox) :=
  int.bind fun _ => int.bind fun _ => int.bind fun _ => checkedFirst (value _)

theorem boxKind (b : SceneBox) : Blind R (boxKind b : M H ε SceneBox) :=
  word.bind fun _ => ite (value _) <| ite (value _) <| ite (boxColors b) (unexpected _)

/-! ### Tests -/

section Hosts

variable (hR : HostsAbreast (ε := ε) R)
include hR

theorem compared (i : Int) (op : String) (v : Int) : Blind R (do
    match compare (SceneHost.var (← Description.theHost) i.toNat).toInt v op with
    | some b => return b
    | none => Description.fault (.comparison op) : M H ε Bool) := by
  refine lookHost (fun h => by simp only [hR.var h]) fun h => ?_
  split
  · exact value _
  · exact fault _

theorem guard : Blind R (guard : M H ε Bool) :=
  arrayIndex.bind fun i => checkedFirst <| word.bind fun op => word.bind fun w =>
    ite (lookHost (fun h => by simp only [hR.sceneNumber h]) fun _ => (value _).bind (compared hR i op))
      ((number w).bind (compared hR i op))

theorem guards (n : Nat) (w : String) : Blind R (guards n w : M H ε (Option String)) := by
  induction n generalizing w with
  | zero => exact value _
  | succ n ih => exact ite (value _) ((guard hR).bind fun _ => ite (value _) (word.bind ih))

/-! ### Lines -/

theorem onObject (i : Nat) (f : SceneObject → SceneObject) : Blind R (onObject i f : M H ε Unit) :=
  onHost fun h => hR.modifyObject h i f

theorem selectObject (anew : Bool) : Blind R (selectObject anew : M H ε Unit) := by
  refine word.bind fun name => lookHost (fun h => by simp only [hR.findObject h]) fun h => ?_
  refine bind (note (fun _ => rfl) fun _ _ => rfl) fun _ => ?_
  split
  · exact ite (onObject hR _ _) (value _)
  · exact value _

theorem music : Blind R (music : M H ε Unit) :=
  (onHost fun h => hR.setTrack h 0).bind fun _ => word.bind fun _ => ite (onHost fun h => hR.setMusic h none)
    ((onHost fun h => hR.setMusic h _).bind fun _ => int.bind fun _ => onHost fun h => hR.setTrack h _)

theorem command (w : String) : Blind R (command w : M H ε Bool) := by
  have ends {m : M H ε Unit} (hm : Blind R m) : Blind R (m >>= fun _ => pure true) := hm.bind fun _ => value _
  refine ite (value _) <| ite (ends (enter _)) <| ite (ends (enter _)) <| ite ?screen <| ite ?number <|
    ite (ends (music hR)) <| ite ?object <| ite ?newObject <| ite ?bag <| ite (ends (enter _)) ?other
  case screen => exact word.bind fun name => ends (runHost (hR.loadScreen name))
  case number => exact int.bind fun n => ends (onHost fun h => hR.setSceneNumber h _)
  case object => exact (enter _).bind fun _ => ends (selectObject hR true)
  case newObject => exact (enter _).bind fun _ => ends (selectObject hR false)
  case bag => exact (enter _).bind fun _ => int.bind fun _ => int.bind fun _ => ends (onHost fun h => hR.setBagPosition h _ _)
  case other => exact look (fun _ _ => rfl) fun _ => ends (fault _)

theorem bagLine (w : String) : Blind R (bagLine w : M H ε Unit) :=
  ite (enter _) <| lookHost (fun h => by simp only [hR.hasBagEntry h]) fun _ => ite skipLine <| word.bind fun _ =>
    runHost (hR.addBagEntry _ _)

theorem sceneLine (w : String) : Blind R (sceneLine w : M H ε Unit) :=
  ite (enter _) <| (number w).bind fun _ => word.bind fun _ => runHost (hR.addNextScene _)

theorem objectVar (i : Nat) : Blind R (objectVar i : M H ε Unit) :=
  arrayIndex.bind fun _ => int.bind fun _ => checkedFirst (onObject hR _ _)

theorem initMode (i : Nat) : Blind R (initMode i : M H ε Unit) :=
  word.bind fun _ => ite (onObject hR _ _) <| ite (onObject hR _ _) <|
    ite ((onObject hR _ _).bind fun _ => int.bind fun _ => onObject hR _ _) <| ite (onObject hR _ _) (fault _)

theorem loadStatus (i : Nat) : Blind R (loadStatus i : M H ε Unit) := by
  refine arrayIndex.bind fun n => lookHost (fun h => by simp only [hR.status h]) fun h => ?_
  split
  · exact fault _
  · exact onObject hR _ _

theorem objectProperty (i : Nat) (w : String) : Blind R (objectProperty i w : M H ε Unit) := by
  have set (n : Int → SceneObject → SceneObject) :
      Blind R (do let v ← Description.int; Description.onObject i (n v) : M H ε Unit) :=
    int.bind fun _ => onObject hR _ _
  refine ite ?name <| ite (objectVar hR i) <| ite ?place <| ite (set _) <| ite (set _) <| ite (set _) <| ite (set _) <|
    ite (set _) <| ite (set _) <| ite ?frame <| ite ?mirror <| ite (initMode hR i) <| ite (loadStatus hR i) (unexpected w)
  case name => exact word.bind fun _ => onObject hR _ _
  case place => exact coord.bind fun _ => onObject hR _ _
  case frame => exact int.bind fun _ => (onObject hR _ _).bind fun _ => set _
  case mirror =>
    refine word.bind fun m => ?_
    split
    · exact onObject hR _ _
    · exact fault _

/-- Whether an object is new does not depend on the host. -/
theorem dropOldObject : Blind R (dropOldObject : M H ε Unit) := by
  refine Abreast.modifies fun ⟨_, _, _, _, _, h⟩ ⟨tokens, part, object, kept, loading, h'⟩ ⟨hst, hs⟩ => ?_
  cases hs
  by_cases hpart : part = .newObject
  · cases object with
    | none =>
      simp only [if_pos hpart]
      exact ⟨hst, rfl⟩
    | some i =>
      simp only [if_pos hpart, hR.objectAnimation hst]
      split
      · exact ⟨hst, rfl⟩
      · exact ⟨hst, rfl⟩
  · simp only [if_neg hpart]
    exact ⟨hst, rfl⟩

theorem objectLine (w : String) : Blind R (objectLine w : M H ε Unit) := by
  refine ite (enter _) <| (dropOldObject hR).bind fun _ => look (fun _ _ => rfl) fun s => ?_
  split
  · exact skipLine
  · exact objectProperty hR _ w

theorem addBox (w : String) : Blind R (addBox w : M H ε Unit) :=
  (number w).bind fun _ => checkedFirst <| lookHost (fun h => by simp only [hR.boxCount h]) fun _ => checkedFirst <|
    lookHost (fun h => by simp only [hR.box h]) fun _ => (boxKind _).bind fun _ => coord.bind fun _ => coord.bind fun _ =>
      onHost fun h => hR.pushBox h _ _

theorem boxLine (w : String) : Blind R (boxLine w : M H ε Unit) := ite (enter _) (addBox hR w)

theorem dropRest : Blind R (dropRest : M H ε Unit) := look (fun _ _ => rfl) fun _ => runHost (hR.dropBehind _)

theorem movie (w : String) : Blind R (movie w : M H ε Unit) := by
  have load : Blind R (Description.runHost (SceneHost.loadMovie w) : M H ε Unit) := runHost (hR.loadMovie w)
  have expect : Blind R (do
      Description.onHost SceneHost.expectMovie
      modify fun s => { s with loading := true }
      Description.runHost (SceneHost.loadMovie w) : M H ε Unit) :=
    (onHost hR.expectMovie).bind fun _ => bind (note (fun _ => rfl) fun _ _ => rfl) fun _ => load
  refine Abreast.look fun ⟨_, _, _, _, _, h⟩ ⟨tokens, part, object, kept, loading, h'⟩ ⟨hst, hs⟩ => ?_
  cases hs
  simp only [hR.animations hst]
  refine ite (ite ?_ (ite ((dropRest hR).bind fun _ => expect) expect)) load
  exact bind (note (fun _ => rfl) fun _ _ => rfl) fun _ => value _

theorem movieLine (w : String) : Blind R (movieLine w : M H ε Unit) :=
  ite (look (fun _ _ => rfl) fun _ => ite ((dropRest hR).bind fun _ => enter _) (enter _)) (movie hR w)

theorem line (w : String) : Blind R (line w : M H ε Bool) := by
  refine look (fun _ _ => rfl) fun s => ?_
  have ends {m : M H ε Unit} (hm : Blind R m) : Blind R (m >>= fun _ => pure true) := hm.bind fun _ => value _
  cases s.part
  case top => exact command hR w
  case movies => exact ends (movieLine hR w)
  case bag => exact ends (bagLine hR w)
  case scenes => exact ends (sceneLine hR w)
  case object => exact ends (objectLine hR w)
  case newObject => exact ends (objectLine hR w)
  case boxes => exact ends (boxLine hR w)

theorem statement (n : Nat) (w : String) : Blind R (statement n w : M H ε Bool) := by
  refine ite ((guards hR n w).bind fun w => ?_) (line hR w)
  split
  · exact skipLine.bind fun _ => value _
  · refine checkedFirst ((onTokens _).bind fun w => ?_)
    split
    · exact value _
    · exact line hR _

theorem lines (n : Nat) : Blind R (lines n : M H ε Unit) := by
  induction n with
  | zero => exact value _
  | succ n ih =>
    refine (onTokens _).bind fun w => ?_
    split
    · exact value _
    · exact (statement hR _ _).bind fun _ => ite ih (value _)

end Hosts

end Blind

/-- A description does the same to hosts that look the same to it. -/
theorem abreast_parse (hR : HostsAbreast (ε := ε) R) (text : List Char) :
    Abreast R R (parse text : EStateM ε H Unit) (parse text) := by
  intro h h' hh
  have hmatch := Blind.lines hR (text.length + 1) { tokens := .ofText text, host := SceneHost.start h }
    { tokens := .ofText text, host := SceneHost.start h' } ⟨hR.start hh, rfl⟩
  unfold parse
  split <;> rename_i hs <;> split <;> rename_i ht <;> rw [hs, ht] at hmatch
  · exact ⟨rfl, hmatch.2.1⟩
  · exact hmatch.elim
  · exact hmatch.elim
  · exact hmatch

end Description

end Adventure
