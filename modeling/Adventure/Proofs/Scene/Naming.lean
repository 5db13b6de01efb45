import Adventure.Proofs.Scene.Rounds
import Adventure.Proofs.Text.Case
import Adventure.Proofs.Text.Utf8

/-! The names that a description brings, those of entries of the bag, of classes of objects and of scenes that can
follow, are words of its text. What holds of all the words that can be read in a text holds of the names that it brings. -/

namespace Adventure.Description

variable {H ε : Type} [SceneHost H ε]

/-- What a host does when a description acts on it and brings names for which `W` holds, as it does where a word is missing. -/
structure NamingActs (W : String → Prop) (K E : H → H → Prop) : Prop extends BareHostActs K E where
  missing : W ""
  setClass : ∀ i name h, W name → K h (SceneHost.modifyObject i (fun o => { o with className := name }) h)
  addBagEntry : ∀ name file h, W name → SceneHost.hasBagEntry h name = false →
    Leads (SceneHost.addBagEntry (H := H) name file) h (fun _ => K h) (E h)
  addNextScene : ∀ n name, W name → Within K E (SceneHost.addNextScene (H := H) ⟨n, upper name⟩)

/-! ### Words -/

/-- `W` holds of every word that can be read in the text, from wherever it is read on. -/
def Wording (W : String → Prop) (text : List Char) : Prop := ∀ t, t <:+ text → ∀ w ∈ (Tokenizer.ofText t).word?.1, W w

theorem Wording.suffix {W : String → Prop} {text t : List Char} (h : Wording W text) (ht : t <:+ text) : Wording W t :=
  fun u hu => h u (hu.trans ht)

/-- Words are looked for behind every number of characters. -/
instance {W : String → Prop} [DecidablePred W] (text : List Char) : Decidable (Wording W text) :=
  decidable_of_iff (∀ n < text.length + 1, ∀ w ∈ (Tokenizer.ofText (text.drop n)).word?.1, W w) <| by
    constructor
    · intro h t ht
      rw [List.suffix_iff_eq_drop.mp ht]
      exact h _ (Nat.lt_succ_of_le (Nat.sub_le _ _))
    · exact fun h n _ => h _ (List.drop_suffix n text)

theorem wording_noZero {text : List Char} (h : '\x00' ∉ text) : Wording Text.NoZero text := fun t ht w hw hc =>
  h (ht.subset ((Tokenizer.ofText t).word?_text.2 w hw _ hc))

theorem Wording.word {W : String → Prop} {t : Tokenizer} (h : Wording W t.text) : ∀ w ∈ t.word?.1, W w := by
  obtain ⟨_ | s⟩ := t
  · exact fun _ hw => nomatch hw
  · exact h s (List.suffix_refl s)

theorem noZero_upper {s : String} (h : Text.NoZero s) : Text.NoZero (upper s) := by
  intro hc
  rw [upper, String.toList_ofList, List.mem_map] at hc
  obtain ⟨c, hc, h0⟩ := hc
  exact Text.toUpper_ne_zero (fun h' => h (h' ▸ hc)) h0

theorem utf8ByteSize_upper (s : String) : (upper s).utf8ByteSize = s.utf8ByteSize := by
  have size (c : Char) : (String.utf8EncodeChar c.toUpper).length = (String.utf8EncodeChar c).length := by
    rw [String.length_utf8EncodeChar, String.length_utf8EncodeChar, Text.utf8Size_toUpper]
  rw [← Text.length_bytes, ← Text.length_bytes, Text.bytes_eq, Text.bytes_eq, upper, String.toList_ofList, List.flatMap_map,
    List.length_flatMap, List.length_flatMap]
  simp only [size]

/-- In front of a text with such words, a step leaves a text with such words and gives a value for which `P` holds, and the
host stands in the relation `K` to what it was; if the step fails, in the relation `E`. -/
def Worded {α : Type} (W : String → Prop) (K E : H → H → Prop) (P : α → Prop) (m : M H ε α) : Prop :=
  ∀ s, Wording W s.tokens.text → Leads m s (fun a t => Wording W t.tokens.text ∧ K s.host t.host ∧ P a) fun t => E s.host t.host

namespace Worded

variable {W : String → Prop} {K E : H → H → Prop} {α β : Type} {P : α → Prop} {Q : β → Prop} {m n : M H ε α}

section

variable (hK : Chains K E)
include hK

omit [SceneHost H ε] in
theorem value {a : α} (ha : P a) : Worded W K E P (pure a : M H ε α) := fun s hs => ⟨hs, hK.refl s.host, ha⟩

theorem fault (e : SceneError) : Worded W K E P (Description.fault e : M H ε α) := fun s _ => hK.stop s.host

omit [SceneHost H ε] in
theorem bind {f : α → M H ε β} (hm : Worded W K E P m) (hf : ∀ a, P a → Worded W K E Q (f a)) : Worded W K E Q (m >>= f) := by
  intro s hs
  refine Leads.bind ((hm s hs).mono (fun a t h => ?_) fun _ h => h)
  obtain ⟨ht, hhost, ha⟩ := h
  exact (hf a ha t ht).mono (fun _ _ h => ⟨h.1, hK.trans hhost h.2.1, h.2.2⟩) fun _ h => hK.fails hhost h

omit [SceneHost H ε] hK in
theorem ite {c : Prop} [Decidable c] (hm : Worded W K E P m) (hn : Worded W K E P n) : Worded W K E P (if c then m else n) := by
  split
  · exact hm
  · exact hn

/-- Nothing is asked of the value of a step that is made of acts. -/
theorem of_acts (hm : Acts (fun s t : Description H => K s.host t.host) (fun s t => E s.host t.host) m) :
    Worded W K E (fun _ => True) m := by
  have hC : Chains (fun s t : Description H => K s.host t.host) fun s t => E s.host t.host :=
    ⟨fun s => hK.refl s.host, fun s => hK.stop s.host, hK.trans, hK.fails⟩
  intro s hs
  refine ((hm.within hC (fun s _ => hK.refl s.host) s).and (hm.ends s)).mono (fun _ t h => ?_) fun _ h => h.1
  exact ⟨hs.suffix h.2, h.1, trivial⟩

omit [SceneHost H ε] in
theorem word? : Worded W K E (fun w => ∀ v ∈ w, W v) (onTokens Tokenizer.word? : M H ε (Option String)) := fun s hs =>
  ⟨hs.suffix s.tokens.word?_text.1, hK.refl s.host, hs.word⟩

omit [SceneHost H ε] in
theorem word (hmissing : W "") : Worded W K E W (word : M H ε String) := by
  refine (word? hK).bind hK fun w hw => value hK ?_
  cases w with
  | none => exact hmissing
  | some w => exact hw w rfl

omit [SceneHost H ε] hK in
theorem theHost {f : H → M H ε α} (hf : ∀ h, Worded W K E P (f h)) : Worded W K E P (Description.theHost >>= f) :=
  fun s hs => hf s.host s hs

omit [SceneHost H ε] hK in
theorem host {m : EStateM ε H Unit} (hm : Within K E m) : Worded W K E (fun _ => True) (runHost m) := by
  intro s hs
  have hhost := hm s.host
  simp only [Leads, runHost] at hhost ⊢
  cases hm : m s.host with
  | ok a h => rw [hm] at hhost; exact ⟨hs, hhost, trivial⟩
  | error e h => rwa [hm] at hhost

/-! ### Tests -/

theorem guards (hmissing : W "") (n : Nat) {w : String} (hw : W w) :
    Worded W K E (fun r => ∀ v ∈ r, W v) (guards n w : M H ε (Option String)) := by
  have here {w : String} (hw : W w) : ∀ v ∈ some w, W v := fun v hv => Option.mem_some.mp hv ▸ hw
  induction n generalizing w with
  | zero => exact value hK (here hw)
  | succ n ih =>
    refine ite (value hK (here hw)) ((of_acts hK Acts.guard).bind hK fun _ _ => ite (value hK fun _ h => nomatch h) ?_)
    exact (word hK hmissing).bind hK fun w hw => ih hw

end

/-! ### Lines -/

variable (hK : NamingActs W K E)
include hK

theorem enter (part : Section) : Worded W K E (fun _ => True) (enter part : M H ε Unit) :=
  of_acts hK.chains (Acts.enter hK.movies.toBareActs part)

/-- An entry is brought where it is missing. -/
theorem addMissing {name : String} (hname : W name) (file : String) :
    Worded W K E (fun _ => True)
      (runHost fun h => if SceneHost.hasBagEntry h name then .ok () h else SceneHost.addBagEntry name file h : M H ε Unit) := by
  refine host fun h => ?_
  have hadd := hK.addBagEntry name file h hname
  simp only [Leads] at hadd ⊢
  cases hhas : SceneHost.hasBagEntry h name with
  | true => exact hK.chains.refl h
  | false => exact hadd hhas

theorem bagLine {w : String} (hw : W w) : Worded W K E (fun _ => True) (bagLine w : M H ε Unit) := by
  have hC := hK.chains
  rw [Acts.bagLine_eq]
  refine ite (enter hK _) <| theHost fun h => ite (of_acts hC Acts.skipLine) ?_
  exact (word hC hK.missing).bind hC fun file _ => addMissing hK hw file

theorem sceneLine (w : String) : Worded W K E (fun _ => True) (sceneLine w : M H ε Unit) := by
  have hC := hK.chains
  refine ite (enter hK _) <| (of_acts hC (Acts.number w)).bind hC fun n _ => (word hC hK.missing).bind hC fun name hname => ?_
  exact host (hK.addNextScene _ _ hname)

theorem objectProperty (i : Nat) (w : String) : Worded W K E (fun _ => True) (objectProperty i w : M H ε Unit) := by
  have hC := hK.chains
  by_cases hclass : w = "Class"
  · subst hclass
    exact (word hC hK.missing).bind hC fun name hname s hs => ⟨hs, hK.setClass i name s.host hname, trivial⟩
  · exact of_acts hC (Acts.bareProperty hK.movies.toBareActs i hclass)

theorem objectLine (w : String) : Worded W K E (fun _ => True) (objectLine w : M H ε Unit) := by
  have hC := hK.chains
  refine ite (enter hK _) <| (of_acts hC (Acts.dropOldObject hK.movies.toBareActs)).bind hC fun _ _ s hs => ?_
  refine Leads.look ?_
  cases s.object with
  | none => exact of_acts hC Acts.skipLine s hs
  | some i => exact objectProperty hK i w s hs

theorem lineOf (part : Section) {w : String} (hw : W w) : Worded W K E (fun _ => True) (lineOf part w : M H ε Bool) := by
  have hC := hK.chains
  have ends {m : M H ε Unit} (hm : Worded W K E (fun _ => True) m) : Worded W K E (fun _ => True) (m >>= fun _ => pure true) :=
    hm.bind hC fun _ _ => value hC trivial
  by_cases hmovies : part = .movies
  · subst hmovies
    exact ends (of_acts hC (Acts.movieLine hK.movies w))
  by_cases hbag : part = .bag
  · subst hbag
    exact ends (bagLine hK hw)
  by_cases hscenes : part = .scenes
  · subst hscenes
    exact ends (sceneLine hK w)
  by_cases hobject : part = .object ∨ part = .newObject
  · obtain rfl | rfl := hobject <;> exact ends (objectLine hK w)
  rw [not_or] at hobject
  exact of_acts hC (Acts.bareLine hK.movies.toBareActs hmovies hbag hscenes hobject.1 hobject.2 w)

theorem line {w : String} (hw : W w) : Worded W K E (fun _ => True) (line w : M H ε Bool) :=
  fun s hs => lineOf hK s.part hw s hs

theorem statement (n : Nat) {w : String} (hw : W w) : Worded W K E (fun _ => True) (statement n w : M H ε Bool) := by
  have hC := hK.chains
  have next {f : Option String → M H ε Bool} (hnone : f none = pure false) (hsome : ∀ w, f (some w) = Description.line w) :
      Worded W K E (fun _ => True) (onTokens Tokenizer.word? >>= f) := by
    refine (word? hC).bind hC fun w hw => ?_
    cases w with
    | none => exact hnone ▸ value hC trivial
    | some w => exact hsome w ▸ line hK (hw w rfl)
  refine ite ((guards hC hK.missing n hw).bind hC fun w hw => ?_) (line hK hw)
  cases w with
  | none => exact (of_acts hC Acts.skipLine).bind hC fun _ _ => value hC trivial
  | some w => exact ite ((fault hC _ : Worded W K E (fun _ => True) _).bind hC fun _ _ => next rfl fun _ => rfl) (next rfl fun _ => rfl)

theorem lines (n : Nat) : Worded W K E (fun _ => True) (lines n : M H ε Unit) := by
  have hC := hK.chains
  induction n with
  | zero => exact value hC trivial
  | succ n ih =>
    refine (word? hC).bind hC fun w hw => ?_
    cases w with
    | none => exact value hC trivial
    | some w => exact (statement hK _ (hw w rfl)).bind hC fun _ _ => ite ih (value hC trivial)

end Worded

/-- A text brings names alone for which holds what holds of its words. -/
theorem parse_naming {W : String → Prop} {K E : H → H → Prop} (hK : NamingActs W K E) {text : List Char} (htext : Wording W text)
    (h : H) :
    Leads (parse text : EStateM ε H Unit) h (fun _ h' => K (SceneHost.start h) h') (E (SceneHost.start h)) := by
  have hlines := Worded.lines hK (text.length + 1) (opening text h) htext
  simp only [Leads, parse, opening] at hlines ⊢
  cases hr : (Description.lines (text.length + 1) : M H ε Unit) { tokens := Tokenizer.ofText text, host := SceneHost.start h } with
  | ok b s => rw [hr] at hlines; exact hlines.2.1
  | error e s => rwa [hr] at hlines

end Adventure.Description
