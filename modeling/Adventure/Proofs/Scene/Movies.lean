import Adventure.Proofs.Scene.Rounds
import Adventure.Proofs.Text.Case

/-! A section of movies. Its lines name the movies of the scene. As far as the names are those of
the animations that are loaded, nothing is done; what is loaded behind them is dropped, and the
rest of the movies are loaded. -/

namespace Adventure.Description

variable {H ε : Type} [SceneHost H ε] {s t u : Description H} {names : List String}

/-! ### What a round comes to -/

/-- What the tests in front of a line leave of it. -/
inductive Tested where
  | skipped | ended
  | line (w : String)

/-- The word of a round and its tests. -/
def testsUpTo (n : Nat) : M H ε Tested := do
  match ← onTokens Tokenizer.word? with
  | none => return .ended
  | some w =>
    if w = guardWord then
      match ← guards n w with
      | none =>
        skipLine
        return .skipped
      | some w =>
        if w ≠ "->" then fault (.missingThen w)
        match ← onTokens Tokenizer.word? with
        | none => return .ended
        | some w => return .line w
    else return .line w

def tests : M H ε Tested := fun s => testsUpTo s.tokens.size s

/-- What a round does behind its tests. -/
def Tested.follow : Tested → M H ε Bool
  | skipped => pure true
  | ended => pure false
  | line w => Description.line w

theorem roundUpTo_eq_tests (n : Nat) : (roundUpTo n : M H ε Bool) = testsUpTo n >>= Tested.follow := by
  have line (w : Option String) : (match w with
      | none => pure false
      | some w => Description.line w : M H ε Bool) = (match w with
      | none => return .ended
      | some w => return .line w : M H ε Tested) >>= Tested.follow := by
    cases w <;> rfl
  rw [roundUpTo, testsUpTo, bind_assoc]
  refine bind_congr fun w => ?_
  cases w with
  | none => rfl
  | some w =>
    simp only [statement]
    split
    · rw [bind_assoc]
      refine bind_congr fun w => ?_
      cases w with
      | none => rfl
      | some w =>
        dsimp only
        split
        · rw [bind_assoc]
          rfl
        · rw [bind_assoc]
          exact bind_congr line
    · rfl

theorem round_eq_tests (s : Description H) : (round : M H ε Bool) s = (tests >>= Tested.follow) s := by
  change (roundUpTo s.tokens.size : M H ε Bool) s = (testsUpTo s.tokens.size >>= Tested.follow) s
  rw [roundUpTo_eq_tests]

theorem acts_testsUpTo {K E : Description H → Description H → Prop} (n : Nat) : Acts K E (testsUpTo n : M H ε Tested) := by
  have hword {α : Type} {f : Option String → M H ε α} (hf : ∀ w, Acts K E (f w)) :
      Acts K E (onTokens Tokenizer.word? >>= f) := (Acts.tokens Tokenizer.shrinks_word? Tokenizer.local_word?).bind hf
  have hline : Acts K E (do
      match ← onTokens Tokenizer.word? with
      | none => return .ended
      | some w => return .line w : M H ε Tested) := by
    refine hword fun w => ?_
    cases w
    · exact Acts.value _
    · exact Acts.value _
  refine hword fun w => ?_
  cases w with
  | none => exact Acts.value _
  | some w =>
    refine Acts.ite ((Acts.guards n w).bind fun w => ?_) (Acts.value _)
    cases w with
    | none => exact Acts.skipLine.bind fun _ => Acts.value _
    | some w => exact Acts.ite ((Acts.fault _).bind fun _ => hline) hline

/-- Tests take words of the text, and change nothing else. -/
theorem tests_eq {a : Tested} (h : (tests : M H ε Tested) s = .ok a t) : ∃ tokens, t = { s with tokens } := by
  have hK : Chains (fun s t : Description H => ∃ tokens, t = { s with tokens }) fun _ _ => True := by
    refine ⟨fun s => ⟨s.tokens, rfl⟩, fun _ => trivial, ?_, fun _ _ => trivial⟩
    rintro s t u ⟨tokens, rfl⟩ ⟨tokens', rfl⟩
    exact ⟨tokens', rfl⟩
  exact ((acts_testsUpTo s.tokens.size).within hK (fun _ tokens => ⟨tokens, rfl⟩) s).of_ok h

/-! ### Up to the first section of movies -/

/-- The places at which a text is read on before any section of movies has been read. -/
inductive Early (text : List Char) (h : H) : Description H → Prop
  | start : Early text h (opening text h)
  | next {s t : Description H} (hs : Early text h s) (hpart : s.part ≠ .movies) (ht : (round : M H ε Bool) s = .ok true t) :
    Early text h t

/-- A round outside of the sections of movies leads where the other lines lead. -/
theorem round_quiet {K E : Description H → Description H → Prop} (hK : QuietActs K E) (hpart : s.part ≠ .movies) {b : Bool}
    (h : (round : M H ε Bool) s = .ok b t) : K s t := by
  rw [round_eq_tests] at h
  obtain ⟨a, u, ha, ht⟩ := bind_eq_ok.mp h
  obtain ⟨tokens, rfl⟩ := tests_eq ha
  have hsu : K s { s with tokens } := hK.aside s tokens s.part s.object
  cases a with
  | skipped => cases ht; exact hsu
  | ended => cases ht; exact hsu
  | line w =>
    have hline := (Acts.quietLine hK hpart w).within hK.chains (fun s tokens => hK.aside s tokens s.part s.object)
    exact hK.chains.trans hsu ((hline _).of_ok ht)

theorem Early.quiet {K E : Description H → Description H → Prop} (hK : QuietActs K E) {text : List Char} {h : H}
    (hs : Early text h s) : K (opening text h) s := by
  induction hs with
  | start => exact hK.chains.refl _
  | next _ hpart ht ih => exact hK.chains.trans ih (round_quiet hK hpart ht)

/-! ### A section of movies -/

/-- How many names at the front of two lists are the same. -/
def commonNames : List String → List String → Nat
  | a :: l, b :: l' => if Text.sameName a b then commonNames l l' + 1 else 0
  | _, _ => 0

theorem take_commonNames (l l' : List String) :
    (l.take (commonNames l l')).map Text.lower = (l'.take (commonNames l l')).map Text.lower := by
  induction l generalizing l' with
  | nil => simp [commonNames]
  | cons a l ih =>
    cases l' with
    | nil => rfl
    | cons b l' =>
      simp only [commonNames]
      split
      · rename_i h
        rw [List.take_succ_cons, List.take_succ_cons, List.map_cons, List.map_cons, ih, Text.sameName_iff a b |>.mp h]
      · rfl

/-- No more names at the front are the same. -/
theorem commonNames_longest {l l' : List String} {n : Nat} (hl : n ≤ l.length) (hl' : n ≤ l'.length)
    (h : (l.take n).map Text.lower = (l'.take n).map Text.lower) : n ≤ commonNames l l' := by
  induction n generalizing l l' with
  | zero => exact Nat.zero_le _
  | succ n ih =>
    cases l with
    | nil => cases hl
    | cons a l =>
      cases l' with
      | nil => cases hl'
      | cons b l' =>
        rw [List.take_succ_cons, List.take_succ_cons, List.map_cons, List.map_cons] at h
        obtain ⟨hab, hrest⟩ := List.cons.inj h
        rw [commonNames, if_pos ((Text.sameName_iff a b).mpr hab)]
        exact Nat.succ_le_succ (ih (Nat.le_of_succ_le_succ hl) (Nat.le_of_succ_le_succ hl') hrest)

def loadMovies : List String → EStateM ε H Unit
  | [] => pure ()
  | name :: names => do
    SceneHost.loadMovie name
    loadMovies names

/-- Drops what is loaded behind the animations that are kept, and loads the rest. -/
def reload (kept : Nat) (rest : List String) : EStateM ε H Unit := do
  if rest = [] ∨ SceneHost.animations (← get) ≠ [] then SceneHost.dropBehind ((kept : Int) - 1)
  if rest ≠ [] then
    modify SceneHost.expectMovie
    loadMovies rest

/-- Keeps what the names share with the animations from the given one on, and reloads the rest. -/
def fetch (kept : Nat) (names : List String) : EStateM ε H Unit := do
  let common := commonNames ((SceneHost.animations (← get)).drop kept) names
  reload (kept + common) (names.drop common)

/-- The lines of a section of movies up to its end. The names are those of lines whose tests hold. -/
inductive MoviesSection : Description H → List String → Description H → Prop
  | ends {s t u : Description H} (hs : (tests : M H ε Tested) s = .ok (.line "MoviesEnd") u)
    (ht : (line "MoviesEnd" : M H ε Bool) u = .ok true t) : MoviesSection s [] t
  | skips {s t u : Description H} {names : List String} (hs : (tests : M H ε Tested) s = .ok .skipped u)
    (hrest : MoviesSection u names t) : MoviesSection s names t
  | movie {s t u v : Description H} {name : String} {names : List String} (hname : name ≠ "MoviesEnd")
    (hs : (tests : M H ε Tested) s = .ok (.line name) u) (hv : (line name : M H ε Bool) u = .ok true v)
    (hrest : MoviesSection v names t) : MoviesSection s (name :: names) t

omit [SceneHost H ε] in
theorem runHost_eq_ok {α : Type} {m : EStateM ε H α} {a : α} :
    (runHost m : M H ε α) s = .ok a t ↔ ∃ h, m s.host = .ok a h ∧ t = { s with host := h } := by
  simp only [runHost]
  cases m s.host with
  | ok b h =>
    constructor
    · intro hm
      cases hm
      exact ⟨h, rfl, rfl⟩
    · rintro ⟨h', hm, rfl⟩
      cases hm
      rfl
  | error e h => simp

theorem line_movies {w : String} (hpart : s.part = .movies) :
    (line w : M H ε Bool) s = .ok true t ↔ (movieLine w : M H ε Unit) s = .ok () t := by
  change (lineOf s.part w : M H ε Bool) s = .ok true t ↔ _
  rw [hpart]
  change (movieLine w >>= fun _ => pure true : M H ε Bool) s = .ok true t ↔ _
  rw [bind_eq_ok]
  constructor
  · rintro ⟨_, u, hu, ht⟩
    cases ht
    exact hu
  · intro h
    exact ⟨(), t, h, rfl⟩

/-- Where everything has been loaded anew, a movie is loaded. -/
theorem movie_loading {name : String} (hl : s.loading = true) (h : (movie name : M H ε Unit) s = .ok () t) :
    ∃ host, SceneHost.loadMovie name s.host = .ok () host ∧ t = { s with host } := by
  change (if !s.loading then _ else runHost (SceneHost.loadMovie name) : M H ε Unit) s = _ at h
  rw [hl] at h
  exact runHost_eq_ok.mp h

/-- A movie that is loaded in its place is kept. -/
theorem movie_kept {name : String} (hl : s.loading = false)
    (hsame : ((SceneHost.animations s.host)[s.kept]?).any (Text.sameName · name)) :
    (movie name : M H ε Unit) s = .ok () { s with kept := s.kept + 1 } := by
  change (if !s.loading then (if ((SceneHost.animations s.host)[s.kept]?).any (Text.sameName · name) then _ else _) else _ :
    M H ε Unit) s = _
  rw [if_pos (by rw [hl]; rfl), if_pos hsame]
  rfl

theorem reload_nil (k : Nat) : (reload k [] : EStateM ε H Unit) = SceneHost.dropBehind ((k : Int) - 1) := by
  simp only [reload, true_or, if_true, ne_eq, not_true_eq_false, if_false]
  funext h
  exact congrFun (bind_pure (m := EStateM ε H) (SceneHost.dropBehind ((k : Int) - 1))) h

theorem reload_cons (k : Nat) (name : String) (names : List String) :
    (reload k (name :: names) : EStateM ε H Unit) = reload k [name] >>= fun _ => loadMovies names := by
  simp only [reload, reduceCtorEq, false_or, ne_eq, not_false_eq_true, if_true, loadMovies, bind_assoc]
  refine bind_congr fun h => ?_
  split
  · simp only [bind_assoc, pure_bind]
  · simp only [bind_assoc, pure_bind]

/-- With movies left to load, what is loaded behind those that are kept goes first. -/
theorem of_reload {k : Nat} {rest : List String} {h h' : H} (hrest : rest ≠ [])
    (hr : (reload k rest : EStateM ε H Unit) h = .ok () h') : ∃ g : H,
      (if SceneHost.animations h = [] then g = h else (SceneHost.dropBehind ((k : Int) - 1) : EStateM ε H Unit) h = .ok () g) ∧
        (loadMovies rest : EStateM ε H Unit) (SceneHost.expectMovie g) = .ok () h' := by
  have hreload : (reload k rest : EStateM ε H Unit) h =
      (if SceneHost.animations h ≠ [] then (do
        SceneHost.dropBehind ((k : Int) - 1)
        modify SceneHost.expectMovie
        loadMovies rest) else (do
        modify SceneHost.expectMovie
        loadMovies rest)) h := by
    simp only [reload, hrest, false_or, ne_eq, not_false_eq_true, if_true]
    rfl
  rw [hreload] at hr
  by_cases hempty : SceneHost.animations h = []
  · rw [if_neg (not_not_intro hempty)] at hr
    exact ⟨h, by rw [if_pos hempty], hr⟩
  · rw [if_pos hempty] at hr
    obtain ⟨_, g, hg, hload⟩ := bind_eq_ok.mp hr
    exact ⟨g, by rw [if_neg hempty]; exact hg, hload⟩

/-- At a movie that is not, what is loaded behind those that are kept goes, and it is loaded. -/
theorem movie_new {name : String} (hl : s.loading = false)
    (hsame : ¬((SceneHost.animations s.host)[s.kept]?).any (Text.sameName · name))
    (h : (movie name : M H ε Unit) s = .ok () t) :
    ∃ host, (reload s.kept [name] : EStateM ε H Unit) s.host = .ok () host ∧ t = { s with loading := true, host } := by
  have load {u : Description H} (h : (do
      onHost SceneHost.expectMovie
      modify fun s => { s with loading := true }
      runHost (SceneHost.loadMovie name) : M H ε Unit) u = .ok () t) :
      ∃ host, (do modify SceneHost.expectMovie; loadMovies [name] : EStateM ε H Unit) u.host = .ok () host ∧
        t = { u with loading := true, host } := by
    obtain ⟨host, hhost, rfl⟩ := runHost_eq_ok.mp h
    refine ⟨host, ?_, rfl⟩
    change (SceneHost.loadMovie name >>= fun _ => pure () : EStateM ε H Unit) (SceneHost.expectMovie u.host) = _
    rw [bind_of_ok hhost]
    rfl
  change (if !s.loading then (if ((SceneHost.animations s.host)[s.kept]?).any (Text.sameName · name) then _ else
    if !(SceneHost.animations s.host).isEmpty then _ else _) else _ : M H ε Unit) s = _ at h
  rw [if_pos (by rw [hl]; rfl), if_neg hsame] at h
  have hreload : (reload s.kept [name] : EStateM ε H Unit) s.host =
      (if SceneHost.animations s.host ≠ [] then (do
        SceneHost.dropBehind ((s.kept : Int) - 1)
        modify SceneHost.expectMovie
        loadMovies [name]) else (do
        modify SceneHost.expectMovie
        loadMovies [name])) s.host := by
    simp only [reload, reduceCtorEq, false_or, ne_eq, not_false_eq_true, if_true]
    rfl
  rw [hreload]
  by_cases hempty : SceneHost.animations s.host = []
  · rw [if_neg (by simp [hempty])] at h
    rw [if_neg (not_not_intro hempty)]
    exact load h
  · rw [if_pos (by simpa using hempty)] at h
    rw [if_pos hempty]
    obtain ⟨_, u, hu, ht⟩ := bind_eq_ok.mp h
    obtain ⟨host, hhost, rfl⟩ := runHost_eq_ok.mp hu
    obtain ⟨host', hhost', rfl⟩ := load ht
    exact ⟨host', bind_eq_ok.mpr ⟨_, host, hhost, hhost'⟩, rfl⟩

/-- With no movie loaded nothing goes. -/
theorem movie_first {name : String} {host : H} (hl : s.loading = false) (hnone : SceneHost.animations s.host = [])
    (hload : SceneHost.loadMovie name (SceneHost.expectMovie s.host) = .ok () host) :
    (movie name : M H ε Unit) s = .ok () { s with loading := true, host } := by
  change (if !s.loading then (if ((SceneHost.animations s.host)[s.kept]?).any (Text.sameName · name) then _ else
    if !(SceneHost.animations s.host).isEmpty then _ else _) else _ : M H ε Unit) s = _
  rw [if_pos (by rw [hl]; rfl), if_neg (by simp [hnone]), if_neg (by simp [hnone])]
  exact runHost_eq_ok.mpr ⟨host, hload, rfl⟩

/-- The end of a section in which nothing has been loaded drops what is not kept. -/
theorem movieLine_end (h : (movieLine "MoviesEnd" : M H ε Unit) s = .ok () t) : ∃ host,
    (if s.loading then pure () else SceneHost.dropBehind ((s.kept : Int) - 1) : EStateM ε H Unit) s.host = .ok () host ∧
      t = { s with part := .top, host } := by
  change (if !s.loading then dropRest >>= fun _ => enter .top else enter .top : M H ε Unit) s = _ at h
  by_cases hl : s.loading = true
  · rw [if_neg (by simp [hl])] at h
    cases h
    exact ⟨s.host, by rw [if_pos hl]; rfl, rfl⟩
  · rw [if_pos (by simp [hl])] at h
    obtain ⟨_, u, hu, ht⟩ := bind_eq_ok.mp h
    obtain ⟨host, hhost, rfl⟩ := runHost_eq_ok.mp hu
    cases ht
    exact ⟨host, by rw [if_neg hl]; exact hhost, rfl⟩

/-! ### What a section does -/

theorem commonNames_nil (l : List String) : commonNames l [] = 0 := by
  cases l <;> rfl

/-- The names share what they share with the animations from the given one on. -/
theorem commonNames_drop (l : List String) (k : Nat) (name : String) (names : List String) :
    commonNames (l.drop k) (name :: names) =
      if (l[k]?).any (Text.sameName · name) then commonNames (l.drop (k + 1)) names + 1 else 0 := by
  by_cases hk : k < l.length
  · rw [List.drop_eq_getElem_cons hk, List.getElem?_eq_getElem hk]
    rfl
  · rw [List.drop_of_length_le (Nat.not_lt.mp hk), List.getElem?_eq_none (Nat.not_lt.mp hk)]
    rfl

theorem fetch_eq {k n : Nat} {h : H} (hn : commonNames ((SceneHost.animations h).drop k) names = n) :
    (fetch k names : EStateM ε H Unit) h = reload (k + n) (names.drop n) h := hn ▸ rfl

theorem fetch_kept {h : H} {k : Nat} {name : String} (hsame : ((SceneHost.animations h)[k]?).any (Text.sameName · name)) :
    (fetch k (name :: names) : EStateM ε H Unit) h = fetch (k + 1) names h := by
  have hcommon := commonNames_drop (SceneHost.animations h) k name names
  rw [if_pos hsame] at hcommon
  rw [fetch_eq hcommon, fetch_eq rfl, List.drop_succ_cons, Nat.add_assoc k 1, Nat.add_comm 1]

theorem fetch_new {h : H} {k : Nat} {name : String}
    (hsame : ¬((SceneHost.animations h)[k]?).any (Text.sameName · name)) :
    (fetch k (name :: names) : EStateM ε H Unit) h = reload k (name :: names) h := by
  have hcommon := commonNames_drop (SceneHost.animations h) k name names
  rw [if_neg hsame] at hcommon
  exact fetch_eq hcommon

namespace MoviesSection

/-- Once a movie has been loaded, so are the others, and none is kept any more. -/
theorem of_loading (h : MoviesSection s names t) (hpart : s.part = .movies) (hl : s.loading = true) :
    (loadMovies names : EStateM ε H Unit) s.host = .ok () t.host ∧ t.kept = s.kept := by
  induction h with
  | @ends s t u hs ht =>
    obtain ⟨tokens, rfl⟩ := tests_eq hs
    obtain ⟨host, hhost, rfl⟩ := movieLine_end ((line_movies (s := { s with tokens }) hpart).mp ht)
    rw [if_pos hl] at hhost
    exact ⟨hhost, rfl⟩
  | skips hs _ ih =>
    obtain ⟨tokens, rfl⟩ := tests_eq hs
    exact ih hpart hl
  | @movie s t u v name names hname hs hv _ ih =>
    obtain ⟨tokens, rfl⟩ := tests_eq hs
    have hmovie := (line_movies (s := { s with tokens }) hpart).mp hv
    rw [movieLine, if_neg hname] at hmovie
    obtain ⟨host, hhost, rfl⟩ := movie_loading (s := { s with tokens }) hl hmovie
    obtain ⟨hload, hkept⟩ := ih hpart hl
    exact ⟨bind_eq_ok.mpr ⟨_, host, hhost, hload⟩, hkept⟩

/-- A section of movies in which nothing has been loaded yet keeps the movies that are loaded as
far as the names go, counts them, and loads the others. -/
theorem of_keeping (h : MoviesSection s names t) (hpart : s.part = .movies) (hl : s.loading = false) :
    (fetch s.kept names : EStateM ε H Unit) s.host = .ok () t.host ∧
      t.kept = s.kept + commonNames ((SceneHost.animations s.host).drop s.kept) names := by
  induction h with
  | @ends s t u hs ht =>
    obtain ⟨tokens, rfl⟩ := tests_eq hs
    obtain ⟨host, hhost, rfl⟩ := movieLine_end ((line_movies (s := { s with tokens }) hpart).mp ht)
    rw [if_neg (by simp [hl])] at hhost
    rw [fetch_eq (commonNames_nil _), List.drop_nil, reload_nil, commonNames_nil]
    exact ⟨hhost, rfl⟩
  | skips hs _ ih =>
    obtain ⟨tokens, rfl⟩ := tests_eq hs
    exact ih hpart hl
  | @movie s t u v name names hname hs hv hrest ih =>
    obtain ⟨tokens, rfl⟩ := tests_eq hs
    have hmovie := (line_movies (s := { s with tokens }) hpart).mp hv
    rw [movieLine, if_neg hname] at hmovie
    rw [commonNames_drop]
    by_cases hsame : ((SceneHost.animations s.host)[s.kept]?).any (Text.sameName · name) = true
    · have hv := movie_kept (ε := ε) (s := { s with tokens }) hl hsame
      cases hmovie.symm.trans hv
      obtain ⟨hfetch, hkept⟩ := ih hpart hl
      rw [fetch_kept hsame, if_pos hsame, hkept]
      exact ⟨hfetch, Nat.add_right_comm _ _ _⟩
    · obtain ⟨host, hhost, rfl⟩ := movie_new (s := { s with tokens }) hl hsame hmovie
      obtain ⟨hload, hkept⟩ := hrest.of_loading hpart rfl
      rw [fetch_new hsame, reload_cons, bind_of_ok hhost, if_neg hsame]
      exact ⟨hload, hkept⟩

theorem fetches (h : MoviesSection s names t) (hpart : s.part = .movies) (hl : s.loading = false) :
    (fetch s.kept names : EStateM ε H Unit) s.host = .ok () t.host := (h.of_keeping hpart hl).1

end MoviesSection

end Adventure.Description
