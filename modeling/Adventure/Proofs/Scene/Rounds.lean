import Adventure.Proofs.Scene.Steps

/-! A description is read round by round: a word, the tests that it opens, and a line. There
are always fewer lines and tests than the bounds on them, so that the bounds do not matter. -/

namespace Adventure.Description

variable {H ε : Type} [SceneHost H ε]

/-- Nothing is said of where steps lead. -/
theorem actsAnyhow : AllActs (H := H) (fun _ _ => True) fun _ _ => True where
  chains := Chains.ofOrder (fun _ => trivial) fun _ _ => trivial
  aside _ _ _ _ := trivial
  setSceneNumber _ _ := trivial
  loadScreen _ := within_anyhow _
  setMusic _ _ := trivial
  setTrack _ _ := trivial
  modifyObject _ _ _ _ := trivial
  setClass _ _ _ := trivial
  setBagPosition _ _ _ := trivial
  addBagEntry _ _ s _ := within_anyhow _ s
  addNextScene _ := within_anyhow _
  pushBox _ _ _ _ := trivial
  progress _ _ _ := trivial
  dropBehind _ := within_anyhow _
  expectMovie _ := trivial
  loadMovie _ := within_anyhow _

/-! ### Bounds -/

theorem size_of_ok {α : Type} {m : M H ε α} (hm : Acts (fun _ _ => True) (fun _ _ => True) m) {s t : Description H} {a : α}
    (h : m s = .ok a t) : t.tokens.size ≤ s.tokens.size := (hm.shrinks s).of_ok h

omit [SceneHost H ε] in
theorem size_of_word {s t : Description H} {w : String}
    (h : (onTokens Tokenizer.word? : M H ε (Option String)) s = .ok (some w) t) : t.tokens.size < s.tokens.size := by
  change EStateM.Result.ok s.tokens.word?.1 { s with tokens := s.tokens.word?.2 } = _ at h
  obtain ⟨hw, rfl⟩ := EStateM.Result.ok.inj h
  exact Tokenizer.word?_size (Prod.ext hw rfl)

omit [SceneHost H ε] in
/-- A word that opens a test was there. -/
theorem size_of_guardWord {s t : Description H} (h : (word : M H ε String) s = .ok guardWord t) :
    t.tokens.size < s.tokens.size := by
  obtain ⟨w, u, hw, hu⟩ := bind_eq_ok.mp h
  obtain ⟨hv, rfl⟩ := EStateM.Result.ok.inj hu
  cases w with
  | none => exact absurd hv (by decide)
  | some w => exact size_of_word hw

/-- As many tests as there are characters cannot be. -/
theorem guards_bound {n m : Nat} {w : String} {s : Description H} (hn : w = guardWord → s.tokens.size < n)
    (hm : w = guardWord → s.tokens.size < m) :
    (guards n w : M H ε (Option String)) s = guards m w s := by
  induction n generalizing m w s with
  | zero =>
    have hw : w ≠ guardWord := fun h => Nat.not_lt_zero _ (hn h)
    cases m with
    | zero => rfl
    | succ m => rw [guards, guards, if_pos hw]
  | succ n ih =>
    cases m with
    | zero =>
      have hw : w ≠ guardWord := fun h => Nat.not_lt_zero _ (hm h)
      rw [guards, guards, if_pos hw]
    | succ m =>
      by_cases hw : w = guardWord
      · have hns := hn hw
        have hms := hm hw
        rw [guards, guards, if_neg (not_not_intro hw), if_neg (not_not_intro hw)]
        refine bind_congr_ok fun b t hg => ?_
        have hst := size_of_ok Acts.guard hg
        cases b with
        | false => rfl
        | true =>
          refine bind_congr_ok fun v u hv => ih (fun h => ?_) fun h => ?_
          all_goals
            rw [h] at hv
            have hut := size_of_guardWord hv
            omega
      · rw [guards, guards, if_pos hw, if_pos hw]

theorem statement_bound {n m : Nat} {w : String} {s : Description H} (hn : s.tokens.size < n)
    (hm : s.tokens.size < m) : (statement n w : M H ε Bool) s = statement m w s := by
  unfold statement
  split
  · simp only [bind, EStateM.bind, guards_bound (fun _ => hn) fun _ => hm]
  · rfl

/-- A round: a word, and the statement that it opens. Gives false at the end. -/
def roundUpTo (n : Nat) : M H ε Bool := do
  match ← onTokens Tokenizer.word? with
  | none => return false
  | some w => statement n w

theorem acts_roundUpTo {K E : Description H → Description H → Prop} (hK : AllActs K E) (n : Nat) :
    Acts K E (roundUpTo n : M H ε Bool) := by
  refine (Acts.tokens Tokenizer.shrinks_word? Tokenizer.local_word?).bind fun w => ?_
  split
  · exact Acts.value _
  · exact Acts.statement hK _ _

theorem size_of_round {n : Nat} {s t : Description H} (h : (roundUpTo n : M H ε Bool) s = .ok true t) :
    t.tokens.size < s.tokens.size := by
  obtain ⟨w, u, hw, hu⟩ := bind_eq_ok.mp h
  cases w with
  | none => cases hu
  | some w => exact Nat.lt_of_le_of_lt (size_of_ok (Acts.statement actsAnyhow _ _) hu) (size_of_word hw)

theorem roundUpTo_bound {n m : Nat} {s : Description H} (hn : s.tokens.size ≤ n) (hm : s.tokens.size ≤ m) :
    (roundUpTo n : M H ε Bool) s = roundUpTo m s := by
  refine bind_congr_ok fun w t hw => ?_
  cases w with
  | none => rfl
  | some w =>
    have hlt := size_of_word hw
    exact statement_bound (by omega) (by omega)

theorem lines_succ (n : Nat) :
    (lines (n + 1) : M H ε Unit) = roundUpTo (n + 1) >>= fun b => if b then lines n else pure () := by
  funext s
  simp only [lines, roundUpTo, bind, EStateM.bind]
  cases (onTokens Tokenizer.word? : M H ε (Option String)) s with
  | error e t => rfl
  | ok w t => cases w <;> rfl

theorem acts_lines {K E : Description H → Description H → Prop} (hK : AllActs K E) (n : Nat) : Acts K E (lines n : M H ε Unit) := by
  induction n with
  | zero => exact Acts.value _
  | succ n ih =>
    rw [lines_succ]
    exact (acts_roundUpTo hK _).bind fun b => Acts.ite ih (Acts.value _)

theorem roundUpTo_end {n : Nat} {s : Description H} (h : s.tokens.size = 0) :
    (roundUpTo n : M H ε Bool) s = .ok false s := by
  obtain ⟨⟨_ | r⟩, part, object, kept, loading, host⟩ := s
  · rfl
  · cases h

/-- As many lines as there are characters cannot be. -/
theorem lines_bound {n m : Nat} {s : Description H} (hn : s.tokens.size ≤ n) (hm : s.tokens.size ≤ m) :
    (lines n : M H ε Unit) s = lines m s := by
  induction n generalizing m s with
  | zero =>
    cases m with
    | zero => rfl
    | succ m => rw [lines_succ, bind_of_ok (roundUpTo_end (Nat.le_zero.mp hn))]; rfl
  | succ n ih =>
    cases m with
    | zero => rw [lines_succ, bind_of_ok (roundUpTo_end (Nat.le_zero.mp hm))]; rfl
    | succ m =>
      have hround := roundUpTo_bound (ε := ε) hn hm
      rw [lines_succ, lines_succ]
      simp only [bind, EStateM.bind, ← hround]
      cases hr : (roundUpTo (n + 1) : M H ε Bool) s with
      | error e t => rfl
      | ok b t =>
        cases b with
        | false => rfl
        | true =>
          have hlt := size_of_round hr
          exact ih (by omega) (by omega)

/-! ### Rounds -/

/-- A round with enough tests allowed. -/
def round : M H ε Bool := fun s => roundUpTo s.tokens.size s

/-- The rest of a description. -/
def finish : M H ε Unit := fun s => lines s.tokens.size s

theorem round_eq {n : Nat} {s : Description H} (hn : s.tokens.size ≤ n) :
    (round : M H ε Bool) s = roundUpTo n s := roundUpTo_bound (Nat.le_refl _) hn

/-- The rest of a description is a round and the rest behind it. -/
theorem finish_eq (s : Description H) :
    (finish : M H ε Unit) s = (round >>= fun b => if b then finish else pure ()) s := by
  have h : (finish : M H ε Unit) s = lines (s.tokens.size + 1) s :=
    lines_bound (Nat.le_refl _) (Nat.le_succ _)
  rw [h, lines_succ]
  simp only [bind, EStateM.bind, round_eq (ε := ε) (Nat.le_succ s.tokens.size)]
  cases hr : (roundUpTo (s.tokens.size + 1) : M H ε Bool) s with
  | error e t => rfl
  | ok b t =>
    cases b with
    | false => rfl
    | true => exact lines_bound (Nat.le_of_lt_succ (Nat.lt_succ_of_lt (size_of_round hr))) (Nat.le_refl _)

/-- What is seen of a description from outside. -/
def outcome (r : EStateM.Result ε (Description H) Unit) : EStateM.Result ε H Unit :=
  match r with
  | .ok () s => .ok () s.host
  | .error e s => .error e s.host

/-- A text from its start on. -/
def opening (text : List Char) (h : H) : Description H :=
  { tokens := Tokenizer.ofText text, host := SceneHost.start h }

theorem parse_eq (text : List Char) (h : H) : parse text h = outcome (finish (opening text h)) := by
  simp only [parse, finish, opening, outcome]
  rfl

/-- What a host does when a description acts on it and brings no names stands in the relation `K` if it
succeeds, and in the relation `E` if it fails. -/
structure BareHostActs (K E : H → H → Prop) : Prop where
  chains : Chains K E
  setSceneNumber : ∀ n h, K h (SceneHost.setSceneNumber n h)
  dropBehind : ∀ i, Within K E (SceneHost.dropBehind (H := H) i)
  expectMovie : ∀ h, K h (SceneHost.expectMovie h)
  loadMovie : ∀ name, Within K E (SceneHost.loadMovie (H := H) name)
  loadScreen : ∀ name, Within K E (SceneHost.loadScreen (H := H) name)
  setMusic : ∀ name h, K h (SceneHost.setMusic name h)
  setTrack : ∀ n h, K h (SceneHost.setTrack n h)
  modifyObject : ∀ i f h, (∀ o : SceneObject, (f o).title = o.title) → K h (SceneHost.modifyObject i f h)
  setBagPosition : ∀ x y h, K h (SceneHost.setBagPosition x y h)
  pushBox : ∀ group b h, SceneHost.boxCount h group < boxesPerGroup → K h (SceneHost.pushBox group b h)

/-- So does all that a host does. -/
structure HostActs (K E : H → H → Prop) : Prop extends BareHostActs K E where
  setClass : ∀ i name h, K h (SceneHost.modifyObject i (fun o => { o with className := name }) h)
  addBagEntry : ∀ name file h, SceneHost.hasBagEntry h name = false →
    Leads (SceneHost.addBagEntry (H := H) name file) h (fun _ => K h) (E h)
  addNextScene : ∀ s, Within K E (SceneHost.addNextScene (H := H) s)

theorem BareHostActs.movies {K E : H → H → Prop} (hK : BareHostActs K E) :
    MovieActs (fun s t => K s.host t.host) fun s t => E s.host t.host where
  chains := ⟨fun s => hK.chains.refl s.host, fun s => hK.chains.stop s.host, fun h₁ h₂ => hK.chains.trans h₁ h₂,
    fun h₁ h₂ => hK.chains.fails h₁ h₂⟩
  aside s _ _ _ := hK.chains.refl s.host
  setSceneNumber n s := hK.setSceneNumber n s.host
  loadScreen name := within_runHost (hK.loadScreen name)
  setMusic name s := hK.setMusic name s.host
  setTrack n s := hK.setTrack n s.host
  modifyObject i f s hf := hK.modifyObject i f s.host hf
  setBagPosition x y s := hK.setBagPosition x y s.host
  pushBox group b s hroom := hK.pushBox group b s.host hroom
  progress s _ _ := hK.chains.refl s.host
  dropBehind i := within_runHost (hK.dropBehind i)
  expectMovie s := hK.expectMovie s.host
  loadMovie name := within_runHost (hK.loadMovie name)

theorem HostActs.all {K E : H → H → Prop} (hK : HostActs K E) :
    AllActs (fun s t => K s.host t.host) fun s t => E s.host t.host where
  toBareActs := hK.movies.toBareActs
  setClass i name s := hK.setClass i name s.host
  addBagEntry name file s hnew := leads_runHost (hK.addBagEntry name file s.host hnew)
  addNextScene n := within_runHost (hK.addNextScene n)
  progress := hK.movies.progress
  dropBehind := hK.movies.dropBehind
  expectMovie := hK.movies.expectMovie
  loadMovie := hK.movies.loadMovie

/-- From where a scene has started, all acts on the host lead a whole description where each of them leads. -/
theorem parse_leads {K E : H → H → Prop} (hK : HostActs K E) (text : List Char) (h : H) :
    Leads (parse text : EStateM ε H Unit) h (fun _ h' => K (SceneHost.start h) h') (E (SceneHost.start h)) := by
  have hlines :=
    (acts_lines hK.all (text.length + 1)).within hK.all.chains (fun s _ => hK.chains.refl s.host) (opening text h)
  simp only [Leads, parse, opening] at hlines ⊢
  cases hr : (lines (text.length + 1) : M H ε Unit) { tokens := Tokenizer.ofText text, host := SceneHost.start h } with
  | ok b s => rwa [hr] at hlines
  | error e s => rwa [hr] at hlines

/-- Where starting a scene and all acts on the host lead, a whole description leads. -/
theorem parse_within {K E : H → H → Prop} (hK : HostActs K E) (hstart : ∀ h : H, K h (SceneHost.start h))
    (text : List Char) : Within K E (parse text : EStateM ε H Unit) := fun h =>
  (parse_leads hK text h).mono (fun _ _ => hK.chains.trans (hstart h)) fun _ => hK.chains.fails (hstart h)

/-- The places at which a text is read on with the start of a statement. -/
inductive Reached (text : List Char) (h : H) : Description H → Prop
  | start : Reached text h (opening text h)
  | next {s t : Description H} (hs : Reached text h s) (hr : (round : M H ε Bool) s = .ok true t) : Reached text h t

/-- The host has only been acted on since the scene started. -/
theorem Reached.host {K E : H → H → Prop} (hK : HostActs K E) {text : List Char} {h : H} {s : Description H}
    (hs : Reached text h s) : K (SceneHost.start h) s.host := by
  induction hs with
  | start => exact hK.chains.refl _
  | @next s t _ hr ih =>
    exact hK.chains.trans ih (((acts_roundUpTo hK.all _).within hK.all.chains (fun s _ => hK.chains.refl s.host) s).of_ok hr)

theorem Reached.parse_eq {text : List Char} {h : H} {s : Description H} (hs : Reached text h s) :
    parse text h = outcome (finish s) := by
  induction hs with
  | start => exact Description.parse_eq text h
  | next hs hr ih => rw [ih, finish_eq, bind_of_ok hr, if_pos rfl]

/-- A round that leaves at least the text `r` goes the same way with any other text there. -/
theorem round_local {s t : Description H} {q r : List Char} {b : Bool}
    (h : (round : M H ε Bool) (s.reading (q ++ r)) = .ok b t) (hr : r.length < t.tokens.size) (r' : List Char) :
    ∃ q', t = t.reading (q' ++ r) ∧
      (round : M H ε Bool) (s.reading (q ++ r')) = .ok b (t.reading (q' ++ r')) := by
  let n := (q ++ r).length + 1 + ((q ++ r').length + 1)
  have hn : (s.reading (q ++ r)).tokens.size ≤ n := Nat.le_add_right _ _
  have hn' : (s.reading (q ++ r')).tokens.size ≤ n := Nat.le_add_left _ _
  rw [round_eq hn] at h
  obtain ⟨q', ht, hq'⟩ := (acts_roundUpTo actsAnyhow n).local h hr
  exact ⟨q', ht, (round_eq hn').trans (hq' r')⟩

/-- A place in front of the text `r` is reached with any other text in the place of `r`. -/
theorem Reached.local {q r : List Char} {h : H} {s : Description H} (hs : Reached (q ++ r) h s)
    (hr : r.length < s.tokens.size) (r' : List Char) :
    ∃ q', s = s.reading (q' ++ r) ∧ Reached (q ++ r') h (s.reading (q' ++ r')) := by
  induction hs with
  | start => exact ⟨q, rfl, Reached.start⟩
  | @next s t hs hround ih =>
    have hlt : t.tokens.size < s.tokens.size := size_of_round hround
    obtain ⟨q₁, hs₁, hq₁⟩ := ih (Nat.lt_trans hr hlt)
    rw [hs₁] at hround
    obtain ⟨q', ht, hq'⟩ := round_local hround hr r'
    exact ⟨q', ht, hq₁.next hq'⟩

end Adventure.Description
