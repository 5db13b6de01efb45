import Adventure.Proofs.Text.Words
import Adventure.Proofs.Within
import Adventure.Scene.Description

/-! How a scene description is made of steps. Each of its lines takes words of the text, looks
at what has been read so far, and acts on the host by the few things that a host can do. What
holds of these steps holds of all lines. -/

namespace Adventure

/-- The name of an object and that of its class. -/
def SceneObject.title (o : SceneObject) : String × String := (o.name, o.className)

namespace Description

variable {H ε : Type} [SceneHost H ε]

/-- The description with something done to its host. -/
def acted (f : H → H) (s : Description H) : Description H := { s with host := f s.host }

omit [SceneHost H ε] in
/-- What acts on the host alone leads to where the host leads. -/
theorem leads_runHost {α : Type} {m : EStateM ε H α} {s : Description H} {good : α → H → Prop} {bad : H → Prop}
    (hm : Leads m s.host good bad) : Leads (runHost m : M H ε α) s (fun a t => good a t.host) fun t => bad t.host := by
  simp only [Leads, Description.runHost] at hm ⊢
  cases hs : m s.host <;> simpa only [hs] using hm

omit [SceneHost H ε] in
theorem within_runHost {K E : H → H → Prop} {α : Type} {m : EStateM ε H α} (hm : Within K E m) :
    Within (fun s t => K s.host t.host) (fun s t => E s.host t.host) (runHost m : M H ε α) := fun s => leads_runHost (hm s.host)

/-- Where steps lead that bring neither movies nor names: to what stands in the relation `K` to where they
started if they succeed, and in the relation `E` if they fail. -/
structure BareActs (K E : Description H → Description H → Prop) : Prop where
  chains : Chains K E
  aside : ∀ s tokens part object, K s { s with tokens, part, object }
  setSceneNumber : ∀ n s, K s (s.acted (SceneHost.setSceneNumber n))
  loadScreen : ∀ name, Within K E (runHost (SceneHost.loadScreen name) : M H ε Unit)
  setMusic : ∀ name s, K s (s.acted (SceneHost.setMusic name))
  setTrack : ∀ n s, K s (s.acted (SceneHost.setTrack n))
  modifyObject : ∀ i f s, (∀ o : SceneObject, (f o).title = o.title) → K s (s.acted (SceneHost.modifyObject i f))
  setBagPosition : ∀ x y s, K s (s.acted (SceneHost.setBagPosition x y))
  pushBox : ∀ group b s, SceneHost.boxCount s.host group < boxesPerGroup → K s (s.acted (SceneHost.pushBox group b))

/-- Where steps lead that have to do with no movies. -/
structure QuietActs (K E : Description H → Description H → Prop) : Prop extends BareActs K E where
  setClass : ∀ i name s, K s (s.acted (SceneHost.modifyObject i fun o => { o with className := name }))
  addBagEntry : ∀ name file s, SceneHost.hasBagEntry s.host name = false →
    Leads (runHost (SceneHost.addBagEntry name file) : M H ε Unit) s (fun _ => K s) (E s)
  addNextScene : ∀ n, Within K E (runHost (SceneHost.addNextScene n) : M H ε Unit)

/-- Where steps lead that bring no names. -/
structure MovieActs (K E : Description H → Description H → Prop) : Prop extends BareActs K E where
  progress : ∀ s kept loading, K s { s with kept, loading }
  dropBehind : ∀ i, Within K E (runHost (SceneHost.dropBehind i) : M H ε Unit)
  expectMovie : ∀ s, K s (s.acted SceneHost.expectMovie)
  loadMovie : ∀ name, Within K E (runHost (SceneHost.loadMovie name) : M H ε Unit)

/-- Where all steps lead. -/
structure AllActs (K E : Description H → Description H → Prop) : Prop extends QuietActs K E, MovieActs K E

variable {K E : Description H → Description H → Prop}

/-- A step that takes words of the text, looks at what has been read and at the host, and leads
from anywhere to what stands in the relation `K` to it, or `E` when it fails. What is left of the text is
not looked at. -/
inductive Acts (K E : Description H → Description H → Prop) : {α : Type} → M H ε α → Prop
  | value {α : Type} (a : α) : Acts K E (pure a)
  | fault {α : Type} (e : SceneError) : Acts K E (fault e : M H ε α)
  | bind {α β : Type} {m : M H ε α} {f : α → M H ε β} (hm : Acts K E m) (hf : ∀ a, Acts K E (f a)) : Acts K E (m >>= f)
  | tokens {α : Type} {f : Tokenizer → α × Tokenizer} (hf : Tokenizer.Shrinks f)
    (hl : Tokenizer.Local (fun _ => True) f) : Acts K E (onTokens f)
  | checked {α : Type} {f : Tokenizer → Except TokenError α × Tokenizer} (hf : Tokenizer.Shrinks f)
    (hl : Tokenizer.Local (·.isOk) f) : Acts K E (checked f)
  | look {α : Type} {f : Description H → M H ε α} (hf : ∀ s, Acts K E (f s))
    (ht : ∀ s t, f { s with tokens := t } = f s) : Acts K E (get >>= f)
  | note {f : Description H → Description H} (hf : ∀ s, K s (f s))
    (ht : ∀ s t, f { s with tokens := t } = { f s with tokens := t }) : Acts K E (modify f)
  | host {α : Type} {m : EStateM ε H α} (hm : Within K E (runHost m : M H ε α)) : Acts K E (runHost m)

namespace Acts

theorem word : Acts K E (word : M H ε String) :=
  (tokens Tokenizer.shrinks_word? Tokenizer.local_word?).bind fun _ => value _

theorem skipLine : Acts K E (skipLine : M H ε Unit) :=
  (tokens Tokenizer.shrinks_line? Tokenizer.local_line?).bind fun _ => value _

theorem int : Acts K E (int : M H ε Int) := checked Tokenizer.shrinks_int Tokenizer.local_int

theorem arrayIndex : Acts K E (arrayIndex : M H ε Int) :=
  checked Tokenizer.shrinks_arrayIndex Tokenizer.local_arrayIndex

theorem coord : Acts K E (coord : M H ε (Int16 × Int16)) := checked Tokenizer.shrinks_coord Tokenizer.local_coord

theorem theHost : Acts K E (theHost : M H ε H) := look (fun _ => value _) fun _ _ => rfl

theorem number (w : String) : Acts K E (number w : M H ε Int) := by
  unfold Description.number
  split
  · exact value _
  · exact fault _

theorem ite {α : Type} {c : Prop} [Decidable c] {m n : M H ε α} (hm : Acts K E m) (hn : Acts K E n) :
    Acts K E (if c then m else n) := by
  split
  · exact hm
  · exact hn

theorem compared (i : Int) (op : String) (v : Int) : Acts K E (do
    match compare (SceneHost.var (← Description.theHost) i.toNat).toInt v op with
    | some b => return b
    | none => Description.fault (.comparison op) : M H ε Bool) := by
  refine theHost.bind fun h => ?_
  split
  · exact value _
  · exact fault _

theorem tested (i : Int) : Acts K E (do
    let op ← Description.word
    let w ← Description.word
    let v ← if isSceneNumber w then pure (SceneHost.sceneNumber (← Description.theHost)).toInt
      else Description.number w
    match compare (SceneHost.var (← Description.theHost) i.toNat).toInt v op with
    | some b => return b
    | none => Description.fault (.comparison op) : M H ε Bool) :=
  word.bind fun op => word.bind fun w =>
    ite (theHost.bind fun _ => (value _).bind (compared i op)) ((number w).bind (compared i op))

theorem guard : Acts K E (guard : M H ε Bool) :=
  arrayIndex.bind fun i => ite ((fault _).bind fun _ => tested i) (tested i)

theorem guards (n : Nat) (w : String) : Acts K E (guards n w : M H ε (Option String)) := by
  induction n generalizing w with
  | zero => exact value _
  | succ n ih => exact ite (value _) (guard.bind fun _ => ite (value _) (word.bind ih))

theorem onHost {f : H → H} (hf : ∀ s, K s (s.acted f)) : Acts K E (onHost f : M H ε Unit) := note hf fun _ _ => rfl

/-- A word that has no meaning where it stands. -/
theorem unexpected {α : Type} (w : String) :
    Acts K E (do Description.fault (.unexpected w (← get).part) : M H ε α) :=
  look (fun _ => fault _) fun _ _ => rfl

theorem boxColors (b : SceneBox) : Acts K E (boxColors b : M H ε SceneBox) :=
  int.bind fun _ => int.bind fun _ => int.bind fun _ => ite ((fault _).bind fun _ => value _) (value _)

theorem boxKind (b : SceneBox) : Acts K E (boxKind b : M H ε SceneBox) :=
  word.bind fun _ => ite (value _) <| ite (value _) <| ite (boxColors b) (unexpected _)

theorem within {α : Type} {m : M H ε α} (hm : Acts K E m) (hK : Chains K E) (ht : ∀ s tokens, K s { s with tokens }) : Within K E m := by
  induction hm with
  | value a => exact hK.value a
  | fault e => exact hK.fault _
  | bind _ _ ihm ihf => exact hK.bind ihm ihf
  | tokens _ _ => exact fun s => ht s _
  | @checked _ f _ _ =>
    refine hK.bind (m := onTokens f) (fun s => ht s _) fun a => ?_
    split
    · exact hK.value _
    · exact hK.fault _
  | look _ _ ih => exact fun s => ih s s
  | note hf _ => exact hf
  | host hm => exact hm

/-- A step that leads nowhere else leaves the host as it is. -/
theorem leaves_host {α : Type} {m : M H ε α} (hm : Acts (fun s t => t.host = s.host) (fun s t => t.host = s.host) m) :
    Leaves (·.host) m := hm.within (Chains.same _) fun _ _ => rfl

section Bare

variable (hK : BareActs K E)
include hK

theorem onObject (i : Nat) {f : SceneObject → SceneObject} (hf : ∀ o, (f o).title = o.title) :
    Acts K E (onObject i f : M H ε Unit) :=
  onHost fun s => hK.modifyObject i f s hf

/-- A step that changes the section, the object that it is about, and nothing else. -/
theorem notes {f : Description H → Description H}
    (hf : ∀ s, f s = { s with part := (f s).part, object := (f s).object })
    (ht : ∀ s t, f { s with tokens := t } = { f s with tokens := t }) : Acts K E (modify f : M H ε PUnit) :=
  note (fun s => by rw [hf s]; exact hK.aside s s.tokens _ _) ht

theorem enter (part : Section) : Acts K E (enter part : M H ε Unit) :=
  notes hK (fun _ => rfl) fun _ _ => rfl

/-! ### Lines -/

theorem selectObject (anew : Bool) : Acts K E (selectObject anew : M H ε Unit) := by
  refine word.bind fun name => theHost.bind fun h => (notes hK (fun _ => rfl) fun _ _ => rfl).bind fun _ => ?_
  split
  · exact ite (onObject hK _ fun _ => rfl) (value _)
  · exact value _

theorem music : Acts K E (music : M H ε Unit) :=
  (onHost (hK.setTrack 0)).bind fun _ => word.bind fun _ => ite (onHost (hK.setMusic none))
    ((onHost (hK.setMusic _)).bind fun _ => int.bind fun _ => onHost (hK.setTrack _))

theorem command (w : String) : Acts K E (command w : M H ε Bool) := by
  have ends {m : M H ε Unit} (hm : Acts K E m) : Acts K E (m >>= fun _ => pure true) := hm.bind fun _ => value _
  refine ite (value _) <| ite (ends (enter hK _)) <| ite (ends (enter hK _)) <| ite ?screen <| ite ?number <|
    ite (ends (music hK)) <| ite ?object <| ite ?newObject <| ite ?bag <| ite (ends (enter hK _)) ?other
  case screen => exact word.bind fun name => ends (host (hK.loadScreen name))
  case number => exact int.bind fun n => ends (onHost (hK.setSceneNumber _))
  case object => exact (enter hK _).bind fun _ => ends (selectObject hK true)
  case newObject => exact (enter hK _).bind fun _ => ends (selectObject hK false)
  case bag => exact (enter hK _).bind fun _ => int.bind fun _ => int.bind fun _ => ends (onHost (hK.setBagPosition _ _))
  case other => exact look (fun _ => ends (fault _)) fun _ _ => rfl

theorem objectVar (i : Nat) : Acts K E (objectVar i : M H ε Unit) :=
  arrayIndex.bind fun _ => int.bind fun _ => ite ((fault _).bind fun _ => onObject hK _ fun _ => rfl) (onObject hK _ fun _ => rfl)

theorem initMode (i : Nat) : Acts K E (initMode i : M H ε Unit) :=
  word.bind fun _ => ite (onObject hK _ fun _ => rfl) <| ite (onObject hK _ fun _ => rfl) <|
    ite ((onObject hK _ fun _ => by rfl).bind fun _ => int.bind fun _ => onObject hK _ fun _ => by rfl) <| ite (onObject hK _ fun _ => rfl) (fault _)

theorem loadStatus (i : Nat) : Acts K E (loadStatus i : M H ε Unit) := by
  refine arrayIndex.bind fun n => theHost.bind fun h => ?_
  split
  · exact fault _
  · exact onObject hK _ fun _ => rfl

/-- A line about an object that says nothing of its class. -/
theorem bareProperty (i : Nat) {w : String} (hclass : w ≠ "Class") : Acts K E (objectProperty i w : M H ε Unit) := by
  have set (n : Int → SceneObject → SceneObject) (hn : ∀ v o, (n v o).title = o.title) :
      Acts K E (do let v ← Description.int; Description.onObject i (n v) : M H ε Unit) :=
    int.bind fun v => onObject hK _ (hn v)
  unfold Description.objectProperty
  rw [if_neg hclass]
  refine ite (objectVar hK i) <| ite ?place <| ite (set _ fun _ _ => rfl) <| ite (set _ fun _ _ => rfl) <| ite (set _ fun _ _ => rfl) <| ite (set _ fun _ _ => rfl) <|
    ite (set _ fun _ _ => rfl) <| ite (set _ fun _ _ => rfl) <| ite ?frame <| ite ?mirror <| ite (initMode hK i) <| ite (loadStatus hK i) (unexpected w)
  case place => exact coord.bind fun _ => onObject hK _ fun _ => rfl
  case frame => exact int.bind fun _ => (onObject hK _ fun _ => by rfl).bind fun _ => set _ fun _ _ => by rfl
  case mirror =>
    refine word.bind fun m => ?_
    split
    · exact onObject hK _ fun _ => rfl
    · exact fault _

theorem dropOldObject : Acts K E (dropOldObject : M H ε Unit) := by
  refine notes hK (fun s => ?host) fun s t => ?tokens
  case host =>
    by_cases hp : s.part = .newObject
    · rw [if_pos hp]
      split
      · split_ifs <;> rfl
      · rfl
    · rw [if_neg hp]
  case tokens =>
    by_cases hp : s.part = .newObject
    · simp only [if_pos hp]
      split
      · split_ifs <;> rfl
      · rfl
    · simp only [if_neg hp]

omit [SceneHost H ε] hK in
theorem onHost_congr {f g : H → H} {s : Description H} (h : f s.host = g s.host) :
    (Description.onHost f : M H ε Unit) s = Description.onHost g s := by
  change EStateM.Result.ok () { s with host := f s.host } = EStateM.Result.ok () { s with host := g s.host }
  rw [h]

omit hK in
/-- No box is pushed between the look at a group and the end of the line. -/
theorem addBox_eq (w : String) : (addBox w : M H ε Unit) = (do
    let group := Word.pred (← Description.number w)
    if group < 0 ∨ group ≥ numBoxGroups then Description.fault (.boxIndex group 0)
    else
      let h ← Description.theHost
      if SceneHost.boxCount h group.toNat ≥ boxesPerGroup then
        Description.fault (.boxIndex group (SceneHost.boxCount h group.toNat))
      else
        let b ← Description.boxKind (SceneHost.box h group.toNat (SceneHost.boxCount h group.toNat))
        let c ← Description.coord
        let d ← Description.coord
        Description.onHost fun h =>
          if SceneHost.boxCount h group.toNat < boxesPerGroup then
            SceneHost.pushBox group.toNat { b with x₁ := c.1, y₁ := c.2, x₂ := d.1, y₂ := d.2 } h
          else h) := by
  unfold Description.addBox
  refine bind_congr fun n => ?_
  dsimp only
  by_cases hgroup : Word.pred n < 0 ∨ Word.pred n ≥ numBoxGroups
  · rw [if_pos hgroup, if_pos hgroup]
    rfl
  rw [if_neg hgroup, if_neg hgroup]
  funext s
  change (if SceneHost.boxCount s.host (Word.pred n).toNat ≥ boxesPerGroup then _ else _ : M H ε Unit) s =
    (if SceneHost.boxCount s.host (Word.pred n).toNat ≥ boxesPerGroup then _ else _ : M H ε Unit) s
  by_cases hfull : SceneHost.boxCount s.host (Word.pred n).toNat ≥ boxesPerGroup
  · rw [if_pos hfull, if_pos hfull]
    rfl
  rw [if_neg hfull, if_neg hfull]
  refine (bind_of_ok (m := Description.theHost) rfl).trans ?_
  refine bind_congr_ok fun b t ht => bind_congr_ok fun c u hu => bind_congr_ok fun d v hv => ?_
  have hhost : v.host = s.host :=
    ((leaves_host coord u).of_ok hv).trans (((leaves_host coord t).of_ok hu).trans ((leaves_host (boxKind _) s).of_ok ht))
  have hroom : SceneHost.boxCount v.host (Word.pred n).toNat < boxesPerGroup := hhost ▸ Nat.lt_of_not_le hfull
  exact onHost_congr (if_pos hroom).symm

theorem addBox (w : String) : Acts K E (addBox w : M H ε Unit) := by
  rw [addBox_eq]
  refine (number w).bind fun _ => ite (fault _) <| theHost.bind fun _ => ite (fault _) <|
    (boxKind _).bind fun _ => coord.bind fun _ => coord.bind fun _ => onHost fun s => ?_
  dsimp only [acted]
  split
  · rename_i hroom
    exact hK.pushBox _ _ s hroom
  · exact hK.chains.refl s

theorem boxLine (w : String) : Acts K E (boxLine w : M H ε Unit) := ite (enter hK _) (addBox hK w)

/-- Every line is made of such steps, other than those that bring movies and names. -/
theorem bareLine {part : Section} (hmovies : part ≠ .movies) (hbag : part ≠ .bag) (hscenes : part ≠ .scenes)
    (hobject : part ≠ .object) (hnew : part ≠ .newObject) (w : String) : Acts K E (lineOf part w : M H ε Bool) := by
  have ends {m : M H ε Unit} (hm : Acts K E m) : Acts K E (m >>= fun _ => pure true) := hm.bind fun _ => value _
  cases part
  case top => exact command hK w
  case movies => exact absurd rfl hmovies
  case bag => exact absurd rfl hbag
  case scenes => exact absurd rfl hscenes
  case object => exact absurd rfl hobject
  case newObject => exact absurd rfl hnew
  case boxes => exact ends (boxLine hK w)

end Bare

section Quiet

variable (hK : QuietActs K E)
include hK

/-- Where an entry is missing it is added. -/
theorem within_addMissing (name file : String) :
    Within K E (runHost fun h => if SceneHost.hasBagEntry h name then .ok () h else SceneHost.addBagEntry name file h : M H ε Unit) := by
  intro s
  have hadd := hK.addBagEntry name file s
  simp only [Leads, runHost] at hadd ⊢
  cases hhas : SceneHost.hasBagEntry s.host name with
  | true => exact hK.chains.refl s
  | false => exact hadd hhas

omit hK in
/-- Nothing is added between the look at the bag and the word behind it. -/
theorem bagLine_eq (w : String) : (bagLine w : M H ε Unit) = (do
    if w = "BagEnd" then Description.enter .top
    else if SceneHost.hasBagEntry (← Description.theHost) w then Description.skipLine
    else
      let file ← Description.word
      runHost fun h => if SceneHost.hasBagEntry h w then .ok () h else SceneHost.addBagEntry w file h) := by
  unfold Description.bagLine
  split
  · rfl
  funext s
  change (if SceneHost.hasBagEntry s.host w then _ else _ : M H ε Unit) s = (if SceneHost.hasBagEntry s.host w then _ else _ : M H ε Unit) s
  by_cases hhas : SceneHost.hasBagEntry s.host w = true
  · rw [if_pos hhas, if_pos hhas]
  · rw [if_neg hhas, if_neg hhas]
    refine bind_congr_ok fun file t ht => ?_
    have hhost : t.host = s.host := (leaves_host word s).of_ok ht
    simp only [runHost, hhost, hhas]
    rfl

theorem bagLine (w : String) : Acts K E (bagLine w : M H ε Unit) := by
  rw [bagLine_eq]
  exact ite (enter hK.toBareActs _) <| theHost.bind fun _ => ite skipLine <| word.bind fun _ => host (within_addMissing hK _ _)

theorem sceneLine (w : String) : Acts K E (sceneLine w : M H ε Unit) :=
  ite (enter hK.toBareActs _) <| (number w).bind fun _ => word.bind fun _ => host (hK.addNextScene _)

theorem objectProperty (i : Nat) (w : String) : Acts K E (objectProperty i w : M H ε Unit) := by
  by_cases hclass : w = "Class"
  · subst hclass
    exact word.bind fun name => onHost (hK.setClass i name)
  · exact bareProperty hK.toBareActs i hclass

theorem objectLine (w : String) : Acts K E (objectLine w : M H ε Unit) := by
  refine ite (enter hK.toBareActs _) <| (dropOldObject hK.toBareActs).bind fun _ => look (fun s => ?_) fun _ _ => rfl
  split
  · exact skipLine
  · exact objectProperty hK _ w

/-- Every line is made of such steps, other than those of a section of movies. -/
theorem quietLine {part : Section} (hpart : part ≠ .movies) (w : String) : Acts K E (lineOf part w : M H ε Bool) := by
  have ends {m : M H ε Unit} (hm : Acts K E m) : Acts K E (m >>= fun _ => pure true) := hm.bind fun _ => value _
  cases part
  case movies => exact absurd rfl hpart
  case bag => exact ends (bagLine hK w)
  case scenes => exact ends (sceneLine hK w)
  case object => exact ends (objectLine hK w)
  case newObject => exact ends (objectLine hK w)
  all_goals exact bareLine hK.toBareActs (by decide) (by decide) (by decide) (by decide) (by decide) w

end Quiet

section Movies

variable (hK : MovieActs K E)
include hK

theorem dropRest : Acts K E (dropRest : M H ε Unit) :=
  look (fun _ => host (hK.dropBehind _)) fun _ _ => rfl

theorem movie (w : String) : Acts K E (movie w : M H ε Unit) := by
  have load : Acts K E (runHost (SceneHost.loadMovie w) : M H ε Unit) := host (hK.loadMovie w)
  have expect : Acts K E (do
      Description.onHost SceneHost.expectMovie
      modify fun s => { s with loading := true }
      runHost (SceneHost.loadMovie w) : M H ε Unit) :=
    (onHost hK.expectMovie).bind fun _ => (note (fun s => hK.progress s s.kept true) fun _ _ => rfl).bind fun _ => load
  refine look (fun s => ite (ite ?_ (ite ((dropRest hK).bind fun _ => expect) expect)) load) fun _ _ => rfl
  exact (note (fun s => hK.progress s (s.kept + 1) s.loading) fun _ _ => rfl).bind fun _ => value _

theorem movieLine (w : String) : Acts K E (movieLine w : M H ε Unit) :=
  ite (look (fun _ => ite ((dropRest hK).bind fun _ => enter hK.toBareActs _) (enter hK.toBareActs _)) fun _ _ => rfl) (movie hK w)

end Movies

section All

variable (hK : AllActs K E)
include hK

/-- Every line is made of such steps. -/
theorem line (w : String) : Acts K E (line w : M H ε Bool) := by
  refine look (fun s => ?_) fun _ _ => rfl
  by_cases hpart : s.part = .movies
  · rw [hpart]
    exact (movieLine hK.toMovieActs w).bind fun _ => value _
  · exact quietLine hK.toQuietActs hpart w

theorem nextLine : Acts K E (do
    match ← onTokens Tokenizer.word? with
    | none => return false
    | some w => Description.line w : M H ε Bool) := by
  refine (tokens Tokenizer.shrinks_word? Tokenizer.local_word?).bind fun w => ?_
  split
  · exact value _
  · exact line hK _

/-- So is every line with tests in front of it. -/
theorem statement (n : Nat) (w : String) : Acts K E (statement n w : M H ε Bool) := by
  refine ite ((guards n w).bind fun w => ?_) (line hK w)
  split
  · exact skipLine.bind fun _ => value _
  · exact ite ((fault _).bind fun _ => nextLine hK) (nextLine hK)

end All

end Acts

/-! ### What follows for all steps -/

namespace Acts

variable {α : Type} {m : M H ε α}

/-- No step gives characters back. -/
theorem shrinks (hm : Acts K E m) :
    Within (fun s t => t.tokens.size ≤ s.tokens.size) (fun s t => t.tokens.size ≤ s.tokens.size) m := by
  have hR : Chains (fun s t : Description H => t.tokens.size ≤ s.tokens.size) fun s t => t.tokens.size ≤ s.tokens.size :=
    Chains.ofOrder (fun _ => Nat.le_refl _) fun h₁ h₂ => Nat.le_trans h₂ h₁
  induction hm with
  | value a => exact hR.value a
  | fault e => exact hR.fault _
  | bind _ _ ihm ihf => exact hR.bind ihm ihf
  | tokens hf _ => exact fun s => hf.size s.tokens
  | @checked _ f hf _ =>
    refine hR.bind (m := onTokens f) (fun s => hf.size s.tokens) fun a => ?_
    split
    · exact hR.value _
    · exact hR.fault _
  | look _ _ ih => exact fun s => ih s s
  | note _ ht =>
    intro s
    exact Nat.le_of_eq (congrArg (·.tokens.size) (ht s s.tokens))
  | @host _ m _ =>
    intro s
    simp only [Leads, runHost]
    cases m s.host <;> exact Nat.le_refl _

/-- What a step leaves of the text is an end of it. -/
theorem ends (hm : Acts K E m) : Within (fun s t => t.tokens.text <:+ s.tokens.text) (fun s t => t.tokens.text <:+ s.tokens.text) m := by
  have hR : Chains (fun s t : Description H => t.tokens.text <:+ s.tokens.text) fun s t => t.tokens.text <:+ s.tokens.text :=
    Chains.ofOrder (fun _ => List.suffix_refl _) fun h₁ h₂ => h₂.trans h₁
  induction hm with
  | value a => exact hR.value a
  | fault e => exact hR.fault _
  | bind _ _ ihm ihf => exact hR.bind ihm ihf
  | tokens hf _ => exact fun s => hf.text s.tokens
  | @checked _ f hf _ =>
    refine hR.bind (m := onTokens f) (fun s => hf.text s.tokens) fun a => ?_
    split
    · exact hR.value _
    · exact hR.fault _
  | look _ _ ih => exact fun s => ih s s
  | @note f _ ht =>
    intro s
    have htokens : (f s).tokens = s.tokens := congrArg (·.tokens) (ht s s.tokens)
    have hsuffix : (f s).tokens.text <:+ s.tokens.text := htokens ▸ List.suffix_refl _
    exact hsuffix
  | @host _ m _ =>
    intro s
    simp only [Leads, runHost]
    cases m s.host <;> exact List.suffix_refl _

end Acts

/-- The same place with another text to read. -/
def reading (s : Description H) (r : List Char) : Description H := { s with tokens := ⟨some r⟩ }

@[simp] theorem reading_tokens (s : Description H) (r : List Char) : (s.reading r).tokens = ⟨some r⟩ := rfl

@[simp] theorem reading_host (s : Description H) (r : List Char) : (s.reading r).host = s.host := rfl

theorem eq_reading {s : Description H} {r : List Char} (h : s.tokens = ⟨some r⟩) : s = s.reading r := by
  cases s
  cases h
  rfl

theorem exists_text_of_lt_size {t : Tokenizer} {n : Nat} (h : n < t.size) :
    ∃ u, t = ⟨some u⟩ ∧ n ≤ u.length := by
  obtain ⟨_ | u⟩ := t
  · exact absurd h (Nat.not_lt_zero n)
  · exact ⟨u, rfl, Nat.le_of_lt_succ h⟩

omit [SceneHost H ε] in
theorem onTokens_reading {α : Type} {f : Tokenizer → α × Tokenizer} {s : Description H} {q : List Char} {a : α}
    {t : Tokenizer} (h : f ⟨some q⟩ = (a, t)) :
    (onTokens f : M H ε α) (s.reading q) = .ok a { s with tokens := t } := by
  change EStateM.Result.ok (f ⟨some q⟩).1 { s with tokens := (f ⟨some q⟩).2 } = _
  rw [h]

theorem checked_reading {α : Type} {f : Tokenizer → Except TokenError α × Tokenizer} {s : Description H}
    {q : List Char} {a : Except TokenError α} {t : Tokenizer} (h : f ⟨some q⟩ = (a, t)) :
    (checked f : M H ε α) (s.reading q) =
      (match a with
        | .ok a => pure a
        | .error e => fault (.token e) : M H ε α) { s with tokens := t } := by
  cases a <;> simp only [checked, bind, EStateM.bind, onTokens_reading h]

/-- A step that leaves at least the text `r` does the same whatever stands in the place of `r`. -/
theorem Acts.local {α : Type} {m : M H ε α} (hm : Acts K E m) {s t : Description H} {q r : List Char} {a : α}
    (h : m (s.reading (q ++ r)) = .ok a t) (hr : r.length < t.tokens.size) :
    ∃ q', t = t.reading (q' ++ r) ∧ ∀ r', m (s.reading (q ++ r')) = .ok a (t.reading (q' ++ r')) := by
  induction hm generalizing s t q with
  | value a =>
    cases h
    exact ⟨q, rfl, fun _ => rfl⟩
  | fault e => cases h
  | bind hm hf ihm ihf =>
    obtain ⟨b, u, hb, ha⟩ := bind_eq_ok.mp h
    have hle := ((hf b).shrinks u).of_ok ha
    obtain ⟨q₁, hu, hq₁⟩ := ihm hb (Nat.lt_of_lt_of_le hr hle)
    rw [hu] at ha
    obtain ⟨q', ht, hq'⟩ := ihf b ha hr
    exact ⟨q', ht, fun r' => bind_eq_ok.mpr ⟨b, _, hq₁ r', hq' r'⟩⟩
  | @tokens _ f _ hl =>
    cases h
    obtain ⟨u, hu, hle⟩ := exists_text_of_lt_size hr
    obtain ⟨q', rfl, hq'⟩ := hl trivial (Prod.ext rfl hu) hle
    exact ⟨q', eq_reading hu, fun r' => onTokens_reading (hq' r')⟩
  | @checked _ f _ hl =>
    cases hf : f ⟨some (q ++ r)⟩ with
    | mk b u =>
      rw [checked_reading hf] at h
      cases b with
      | error e => cases h
      | ok b =>
        cases h
        obtain ⟨u, rfl, hle⟩ := exists_text_of_lt_size hr
        obtain ⟨q', rfl, hq'⟩ := hl rfl hf hle
        exact ⟨q', rfl, fun r' => checked_reading (hq' r')⟩
  | @look _ f _ ht ih =>
    have hs (x : List Char) : (get >>= f : M H ε _) (s.reading x) = f s (s.reading x) :=
      congrFun (ht s ⟨some x⟩) (s.reading x)
    rw [hs] at h
    obtain ⟨q', ht', hq'⟩ := ih s h hr
    exact ⟨q', ht', fun r' => (hs _).trans (hq' r')⟩
  | @note f _ ht =>
    have hs (x : List Char) : (modify f : M H ε _) (s.reading x) = .ok () ((f s).reading x) :=
      congrArg (EStateM.Result.ok ()) (ht s ⟨some x⟩)
    rw [hs] at h
    cases h
    exact ⟨q, rfl, fun _ => hs _⟩
  | @host _ m _ =>
    simp only [runHost, reading_host] at h ⊢
    cases hs : m s.host with
    | error e h' => rw [hs] at h; cases h
    | ok b h' =>
      rw [hs] at h
      cases h
      exact ⟨q, rfl, fun _ => rfl⟩

end Description

end Adventure
