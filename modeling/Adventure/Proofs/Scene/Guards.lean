import Adventure.Proofs.Scene.Rounds
import Adventure.Proofs.Text.Lines

/-! Tests in front of a line. A line with tests that is read when all of them hold is as good
as what stands behind its arrow; with a test that fails it is as good as not there. -/

namespace Adventure

open Text

/-! ### Tests -/

inductive Comparison where
  | eq | ne | lt | le | gt | ge
  deriving DecidableEq, Repr

namespace Comparison

def sign : Comparison → String
  | eq => "=="
  | ne => "!="
  | lt => "<"
  | le => "<="
  | gt => ">"
  | ge => ">="

def holds (a b : Int) : Comparison → Bool
  | eq => a = b
  | ne => a ≠ b
  | lt => a < b
  | le => a ≤ b
  | gt => a > b
  | ge => a ≥ b

theorem compare_sign (a b : Int) (c : Comparison) : Description.compare a b c.sign = some (c.holds a b) := by
  cases c <;> rfl

end Comparison

/-- What a variable is compared with. -/
inductive Comparand where
  | sceneNumber
  | number (n : Int)
  deriving DecidableEq, Repr

/-- A test of a variable. -/
structure Test where
  var : Fin numVars
  comparison : Comparison
  value : Comparand
  deriving DecidableEq, Repr

variable {H ε : Type} [SceneHost H ε]

def Comparand.of (h : H) : Comparand → Int
  | sceneNumber => (SceneHost.sceneNumber h).toInt
  | number n => n

def Test.holds (h : H) (t : Test) : Bool :=
  t.comparison.holds (SceneHost.var h t.var).toInt (t.value.of h)

/-! ### How tests are spelled -/

/-- An index is a number in brackets, counted from one. -/
structure SpellsIndex (i : Fin numVars) (w : List Char) : Prop where
  word : IsWord w
  number : ∃ r, w = '[' :: r ∧ readInt? r = some ((i.val : Int) + 1)

structure SpellsValue (v : Comparand) (w : List Char) : Prop where
  word : IsWord w
  value : match v with
    | .sceneNumber => Description.isSceneNumber (String.ofList w) = true
    | .number n => readInt? w = some n

/-- A line up to the blanks behind the arrow that ends the tests. -/
inductive Spells : List Test → List Char → Prop
  | arrow {g : List Char} (hg : IsGap g) : Spells [] ("->".toList ++ g)
  | test {t : Test} {l : List Test} {index value g₁ g₂ g₃ g₄ line : List Char} (hi : SpellsIndex t.var index)
    (hv : SpellsValue t.value value) (h₁ : IsGap g₁) (h₂ : IsGap g₂) (h₃ : IsGap g₃) (h₄ : IsGap g₄)
    (hl : Spells l line) :
    Spells (t :: l) (Description.guardWord.toList ++ (g₁ ++ (index ++ (g₂ ++ (t.comparison.sign.toList ++
      (g₃ ++ (value ++ (g₄ ++ line))))))))

/-- A line with tests in front of a rest that has a word and opens with no test. -/
structure Guarded (tests : List Test) (line rest : List Char) : Prop where
  nonempty : tests ≠ []
  spelled : ∃ indent spelled, line = indent ++ (spelled ++ rest) ∧ IsBlanks indent ∧ '\n' ∉ indent ∧ Spells tests spelled
  line : '\n' ∉ rest
  opening : ∃ w, (Tokenizer.ofText rest).word?.1 = some w ∧ w ≠ Description.guardWord

theorem IsWord.ofSign (c : Comparison) : IsWord c.sign.toList := by
  cases c
  all_goals exact isWord_of_all (by decide) rfl (by decide)

theorem isWord_guardWord : IsWord Description.guardWord.toList := isWord_of_all (by decide) rfl (by decide)

/-- A number is no scene number. -/
theorem isSceneNumber_eq_false {w : List Char} {n : Int} (h : readInt? w = some n) :
    Description.isSceneNumber (String.ofList w) = false := by
  by_contra hn
  have hs : w = "SceneNumber".toList ∨ w = "ScenenNumber".toList := by
    simp only [Description.isSceneNumber, Bool.not_eq_false, decide_eq_true_eq] at hn
    rcases hn with hn | hn
    · exact Or.inl (by rw [← hn, String.toList_ofList])
    · exact Or.inr (by rw [← hn, String.toList_ofList])
  have hnone : readInt? w = none := by
    rcases hs with rfl | rfl
    · decide
    · decide
  rw [hnone] at h
  cases h

namespace Spells

variable {l : List Test} {s : List Char}

theorem dropBlanks (hs : Spells l s) (u : List Char) : (s ++ u).dropWhile isBlank = s ++ u := by
  cases hs with
  | arrow hg => rw [List.append_assoc, isWord_arrow.dropBlanks]
  | test hi hv h₁ h₂ h₃ h₄ hl => rw [List.append_assoc, isWord_guardWord.dropBlanks]

theorem line (hs : Spells l s) : '\n' ∉ s := by
  induction hs with
  | arrow hg => simp only [List.mem_append, isWord_arrow.line, hg.line, or_self, not_false_eq_true]
  | test hi hv h₁ h₂ h₃ h₄ _ ih =>
    simp only [List.mem_append, isWord_guardWord.line, h₁.line, hi.word.line, h₂.line, (IsWord.ofSign _).line,
      h₃.line, hv.word.line, h₄.line, ih, or_self, not_false_eq_true]

theorem length_lt (hs : Spells l s) : l.length < s.length := by
  induction hs with
  | arrow hg => simp
  | test hi hv h₁ h₂ h₃ h₄ _ ih =>
    have hpos : 0 < Description.guardWord.toList.length := by decide
    simp only [List.length_append, List.length_cons]
    omega

end Spells

/-! ### Reading tests -/

namespace Description

variable {s : Description H}

omit [SceneHost H ε] in
theorem word?_reading {b w g : List Char} (hb : IsBlanks b) (hw : IsWord w) (hg : IsGap g) (r : List Char) :
    ∃ b', IsBlanks b' ∧ '\n' ∉ b' ∧ (onTokens Tokenizer.word? : M H ε (Option String)) (s.reading (b ++ (w ++ (g ++ r)))) =
      .ok (some (String.ofList w)) (s.reading (b' ++ r)) := by
  obtain ⟨b', hb', hn, hword⟩ := Tokenizer.word?_gap hb hw hg r
  exact ⟨b', hb', hn, onTokens_reading hword⟩

omit [SceneHost H ε] in
theorem word_reading {b w g : List Char} (hb : IsBlanks b) (hw : IsWord w) (hg : IsGap g) (r : List Char) :
    ∃ b', IsBlanks b' ∧ '\n' ∉ b' ∧
      (word : M H ε String) (s.reading (b ++ (w ++ (g ++ r)))) = .ok (String.ofList w) (s.reading (b' ++ r)) := by
  obtain ⟨b', hb', hn, h⟩ := word?_reading (ε := ε) (s := s) hb hw hg r
  exact ⟨b', hb', hn, bind_eq_ok.mpr ⟨_, _, h, rfl⟩⟩

theorem arrayIndex_reading {b w g : List Char} {i : Fin numVars} (hb : IsBlanks b) (hw : SpellsIndex i w)
    (hg : IsGap g) (r : List Char) :
    ∃ b', IsBlanks b' ∧
      (arrayIndex : M H ε Int) (s.reading (b ++ (w ++ (g ++ r)))) = .ok (i : Int) (s.reading (b' ++ r)) := by
  obtain ⟨c, b', rfl, hc, hb'⟩ := hg.eq_cons
  obtain ⟨n, rfl, hn⟩ := hw.number
  have hpred : Word.pred ((i.val : Int) + 1) = i := by
    rw [Word.pred, if_neg (by simp only [Word.least]; omega)]
    omega
  have hword := Tokenizer.word?_between (r := b' ++ r) hb hw.word hc
  have h : Tokenizer.arrayIndex ⟨some (b ++ ('[' :: n ++ c :: (b' ++ r)))⟩ = (.ok (i : Int), ⟨some (b' ++ r)⟩) := by
    simp only [Tokenizer.arrayIndex, hword, Option.getD_some, String.toList_ofList, hn, hpred]
  exact ⟨b', hb', checked_reading h⟩

/-- A test behind its first word. -/
theorem guard_reading {t : Test} {b index value g₂ g₃ g₄ : List Char} (hb : IsBlanks b)
    (hi : SpellsIndex t.var index) (hv : SpellsValue t.value value) (h₂ : IsGap g₂) (h₃ : IsGap g₃) (h₄ : IsGap g₄)
    (r : List Char) :
    ∃ b', IsBlanks b' ∧ '\n' ∉ b' ∧
      (guard : M H ε Bool) (s.reading (b ++ (index ++ (g₂ ++ (t.comparison.sign.toList ++ (g₃ ++ (value ++ (g₄ ++ r)))))))) =
        .ok (t.holds s.host) (s.reading (b' ++ r)) := by
  obtain ⟨b₁, hb₁, hindex⟩ := arrayIndex_reading (ε := ε) (s := s) hb hi h₂
    (t.comparison.sign.toList ++ (g₃ ++ (value ++ (g₄ ++ r))))
  obtain ⟨b₂, hb₂, -, hsign⟩ := word_reading (ε := ε) (s := s) hb₁ (IsWord.ofSign t.comparison) h₃ (value ++ (g₄ ++ r))
  obtain ⟨b₃, hb₃, hline, hvalue⟩ := word_reading (ε := ε) (s := s) hb₂ hv.word h₄ r
  refine ⟨b₃, hb₃, hline, ?_⟩
  have hrange : ¬((t.var.val : Int) < 0 ∨ (t.var.val : Int) ≥ numVars) := by
    have := t.var.isLt
    omega
  unfold guard
  rw [bind_of_ok hindex]
  simp only [if_neg hrange]
  rw [bind_of_ok hsign, bind_of_ok hvalue]
  obtain ⟨i, c, v⟩ := t
  cases v with
  | sceneNumber =>
    have hspelled : isSceneNumber (String.ofList value) = true := hv.value
    rw [if_pos hspelled]
    simp only [Int.toNat_natCast, theHost, String.ofList_toList, Comparison.compare_sign]
    rfl
  | number n =>
    have hspelled : readInt? value = some n := hv.value
    have hnumber : (number (String.ofList value) : M H ε Int) = pure n := by
      simp only [number, String.toList_ofList, hspelled]
    rw [if_neg (by simp [isSceneNumber_eq_false hspelled]), hnumber]
    simp only [Int.toNat_natCast, theHost, String.ofList_toList, Comparison.compare_sign]
    rfl

/-- A test is read, and what follows it only if it holds. -/
theorem guards_test {t : Test} {b index value g₁ g₂ g₃ g₄ : List Char} (hb : IsBlanks b) (hi : SpellsIndex t.var index)
    (hv : SpellsValue t.value value) (h₁ : IsGap g₁) (h₂ : IsGap g₂) (h₃ : IsGap g₃) (h₄ : IsGap g₄) (r : List Char) (n : Nat) :
    ∃ b', IsBlanks b' ∧ (word >>= guards (n + 1) : M H ε (Option String)) (s.reading (b ++ (guardWord.toList ++ (g₁ ++
        (index ++ (g₂ ++ (t.comparison.sign.toList ++ (g₃ ++ (value ++ (g₄ ++ r)))))))))) =
      if t.holds s.host then (word >>= guards n : M H ε (Option String)) (s.reading (b' ++ r))
      else .ok none (s.reading (b' ++ r)) := by
  obtain ⟨b₁, hb₁, -, hword⟩ := word_reading (ε := ε) (s := s) hb isWord_guardWord h₁
    (index ++ (g₂ ++ (t.comparison.sign.toList ++ (g₃ ++ (value ++ (g₄ ++ r))))))
  obtain ⟨b₂, hb₂, -, hguard⟩ := guard_reading (ε := ε) (s := s) hb₁ hi hv h₂ h₃ h₄ r
  refine ⟨b₂, hb₂, ?_⟩
  rw [bind_of_ok hword, String.ofList_toList, guards, if_neg (not_not_intro rfl), bind_of_ok hguard]
  cases t.holds s.host <;> rfl

/-- Tests that all hold are read up to the arrow. -/
theorem guards_hold {l : List Test} {line : List Char} (hl : Spells l line) (u : List Char) {n : Nat}
    (hn : l.length < n) {b : List Char} (hb : IsBlanks b) (hs : ∀ t ∈ l, t.holds s.host) :
    ∃ b', IsBlanks b' ∧ (word >>= guards n : M H ε (Option String)) (s.reading (b ++ (line ++ u))) =
      .ok (some "->") (s.reading (b' ++ u)) := by
  induction hl generalizing n b with
  | @arrow g hg =>
    obtain ⟨n, rfl⟩ := Nat.exists_eq_succ_of_ne_zero (Nat.ne_of_gt hn)
    obtain ⟨b', hb', -, hword⟩ := word_reading (ε := ε) (s := s) hb isWord_arrow hg u
    refine ⟨b', hb', ?_⟩
    rw [List.append_assoc, bind_of_ok hword]
    rfl
  | @test t l index value g₁ g₂ g₃ g₄ line hi hv h₁ h₂ h₃ h₄ hl ih =>
    obtain ⟨n, rfl⟩ := Nat.exists_eq_succ_of_ne_zero (Nat.ne_of_gt (Nat.zero_lt_of_lt hn))
    simp only [List.append_assoc]
    obtain ⟨b₂, hb₂, htest⟩ := guards_test (ε := ε) (s := s) hb hi hv h₁ h₂ h₃ h₄ (line ++ u) n
    rw [if_pos (hs t List.mem_cons_self)] at htest
    obtain ⟨b', hb', hrest⟩ := ih (Nat.lt_of_succ_lt_succ hn) hb₂ fun t ht => hs t (List.mem_cons_of_mem _ ht)
    exact ⟨b', hb', htest.trans hrest⟩

/-- At a test that fails the rest of its line has not been read. -/
theorem guards_fail {l : List Test} {line : List Char} (hl : Spells l line) (u : List Char) {n : Nat}
    (hn : l.length < n) {b : List Char} (hb : IsBlanks b) (hs : ¬∀ t ∈ l, t.holds s.host) :
    ∃ b' l' line', IsBlanks b' ∧ Spells l' line' ∧
      (word >>= guards n : M H ε (Option String)) (s.reading (b ++ (line ++ u))) =
        .ok none (s.reading (b' ++ (line' ++ u))) := by
  induction hl generalizing n b with
  | arrow hg => exact absurd (by simp) hs
  | @test t l index value g₁ g₂ g₃ g₄ line hi hv h₁ h₂ h₃ h₄ hl ih =>
    obtain ⟨n, rfl⟩ := Nat.exists_eq_succ_of_ne_zero (Nat.ne_of_gt (Nat.zero_lt_of_lt hn))
    simp only [List.append_assoc]
    obtain ⟨b₂, hb₂, htest⟩ := guards_test (ε := ε) (s := s) hb hi hv h₁ h₂ h₃ h₄ (line ++ u) n
    by_cases ht : t.holds s.host = true
    · have hrest : ¬∀ t ∈ l, t.holds s.host := fun h => hs (List.forall_mem_cons.mpr ⟨ht, h⟩)
      obtain ⟨b', l', line', hb', hl', h⟩ := ih (Nat.lt_of_succ_lt_succ hn) hb₂ hrest
      rw [if_pos ht] at htest
      exact ⟨b', l', line', hb', hl', htest.trans h⟩
    · rw [if_neg ht] at htest
      exact ⟨b₂, l, line, hb₂, hl, htest⟩

/-- The end of a line: that of the text, or a line feed. -/
def EndsLine (post : List Char) : Prop := post = [] ∨ ∃ r, post = '\n' :: r

omit [SceneHost H ε] in
theorem skipLine_reading {l : List Test} {b line rest post : List Char} (hb : IsBlanks b) (hl : Spells l line)
    (hr : '\n' ∉ rest) (hpost : EndsLine post) :
    (skipLine : M H ε Unit) (s.reading (b ++ (line ++ (rest ++ post)))) = .ok () { s with tokens := ⟨post.tail?⟩ } := by
  have hskip : (b ++ (line ++ (rest ++ post))).dropWhile isBlank = line ++ (rest ++ post) := by
    rw [List.dropWhile_append_of_pos hb, hl.dropBlanks]
  have hline : ∀ c ∈ line ++ rest, decide (c ≠ '\n') = true := by
    intro c hc
    simp only [decide_eq_true_eq]
    rintro rfl
    rcases List.mem_append.mp hc with h | h
    · exact hl.line h
    · exact hr h
  have hend : (line ++ (rest ++ post)).dropWhile (· ≠ '\n') = post := by
    rw [← List.append_assoc, List.dropWhile_append_of_pos hline]
    rcases hpost with rfl | ⟨r, rfl⟩
    · rfl
    · exact List.dropWhile_cons_of_neg (by simp)
  have hafter : (Tokenizer.line? ⟨some (b ++ (line ++ (rest ++ post)))⟩).2 = ⟨post.tail?⟩ := by
    simp only [Tokenizer.line?, hskip, hend]
    cases post <;> rfl
  change EStateM.Result.ok () { s with tokens := (Tokenizer.line? ⟨some (b ++ (line ++ (rest ++ post)))⟩).2 } = _
  rw [hafter]

/-- The word that opens a line opens it still with more lines behind it, unless quotes in it are
not closed; then there is a line feed in it. -/
theorem opening_append {rest post : List Char} {w : String} (hw : (Tokenizer.ofText rest).word?.1 = some w)
    (hne : w ≠ guardWord) (hpost : EndsLine post) :
    ∃ w', (Tokenizer.word? ⟨some (rest ++ post)⟩).1 = some w' ∧ w' ≠ guardWord := by
  rcases hpost with rfl | ⟨r, rfl⟩
  · exact ⟨w, by rwa [List.append_nil], hne⟩
  cases hd : rest.dropWhile isBlank with
  | nil => simp [Tokenizer.ofText, Tokenizer.word?, hd] at hw
  | cons c v =>
    by_cases hc : c = '"'
    · subst hc
      rw [Tokenizer.ofText, Tokenizer.word?_quoted hd, Option.some_inj] at hw
      refine ⟨_, by rw [Tokenizer.word?_quoted (dropWhile_append_cons hd _)], ?_⟩
      cases hq : v.dropWhile (· ≠ '"') with
      | cons d q => rwa [takeWhile_append_cons hq, hw]
      | nil =>
        intro h
        have hmem : '\n' ∈ (v ++ '\n' :: r).takeWhile (· ≠ '"') := by
          rw [List.takeWhile_append_of_pos (List.dropWhile_eq_nil_iff.mp hq),
            List.takeWhile_cons_of_pos (by decide)]
          simp
        rw [← String.toList_ofList (l := (v ++ '\n' :: r).takeWhile _), h] at hmem
        exact isWord_guardWord.line hmem
    · rw [Tokenizer.ofText, Tokenizer.word?_plain hd hc, Option.some_inj] at hw
      refine ⟨_, by rw [Tokenizer.word?_plain (dropWhile_append_cons hd _) hc], ?_⟩
      have hline : (c :: (v ++ '\n' :: r)).takeWhile (fun d => !isBlank d) = (c :: v).takeWhile fun d => !isBlank d := by
        have hstop : ('\n' :: r).takeWhile (fun d => !isBlank d) = [] := List.takeWhile_cons_of_neg (by decide)
        rw [← List.cons_append, List.takeWhile_append, hstop, List.append_nil]
        split
        · rename_i hall
          exact (List.takeWhile_prefix _).eq_of_length hall |>.symm
        · rfl
      rwa [hline, hw]

/-! ### Rounds with tests -/

variable {tests : List Test} {line rest gap post : List Char}

theorem roundUpTo_of_word {n : Nat} {x : List Char} {w : String} {t : Description H}
    (h : (onTokens Tokenizer.word? : M H ε (Option String)) (s.reading x) = .ok (some w) t) :
    (roundUpTo n : M H ε Bool) (s.reading x) = statement n w t := by
  rw [roundUpTo, bind_of_ok h]

theorem round_congr {x y : List Char} (h : Tokenizer.word? ⟨some x⟩ = Tokenizer.word? ⟨some y⟩) :
    (round : M H ε Bool) (s.reading x) = round (s.reading y) := by
  let n := x.length + 1 + (y.length + 1)
  have hx : (s.reading x).tokens.size ≤ n := Nat.le_add_right _ _
  have hy : (s.reading y).tokens.size ≤ n := Nat.le_add_left _ _
  rw [round_eq hx, round_eq hy, roundUpTo]
  cases hw : Tokenizer.word? ⟨some y⟩ with
  | mk a t => rw [bind_of_ok (onTokens_reading (h.trans hw)), bind_of_ok (onTokens_reading hw)]

/-- What a round does behind its tests. -/
def behindTests : Option String → M H ε Bool
  | none => do
    skipLine
    return true
  | some w => do
    if w ≠ "->" then fault (.missingThen w)
    match ← onTokens Tokenizer.word? with
    | none => return false
    | some w => Description.line w

theorem statement_tests (n : Nat) :
    (statement n guardWord : M H ε Bool) = guards n guardWord >>= behindTests := by
  rw [statement, if_pos rfl]
  congr

/-- A line with tests in front of it is read test by test. -/
theorem roundUpTo_tests (hl : Spells tests line) (hne : tests ≠ []) (hgap : IsBlanks gap) (u : List Char) (n : Nat) :
    (roundUpTo n : M H ε Bool) (s.reading (gap ++ (line ++ u))) =
      ((word >>= guards n) >>= behindTests) (s.reading (gap ++ (line ++ u))) := by
  cases hl with
  | arrow hg => exact absurd rfl hne
  | @test t l index value g₁ g₂ g₃ g₄ line hi hv h₁ h₂ h₃ h₄ hl =>
    rw [List.append_assoc, List.append_assoc]
    obtain ⟨b, -, -, hword⟩ := word?_reading (ε := ε) (s := s) hgap isWord_guardWord h₁ ((index ++
      (g₂ ++ (t.comparison.sign.toList ++ (g₃ ++ (value ++ (g₄ ++ line)))))) ++ u)
    rw [String.ofList_toList] at hword
    have hfirst : (word : M H ε String) _ = .ok guardWord _ := bind_eq_ok.mpr ⟨_, _, hword, rfl⟩
    rw [roundUpTo_of_word hword, statement_tests, bind_congr_result (bind_of_ok hfirst)]

/-- With tests that hold a round is that of what stands behind the arrow. -/
theorem round_hold (hline : Guarded tests line rest) (hpost : EndsLine post) (hgap : IsBlanks gap)
    (hs : ∀ t ∈ tests, t.holds s.host) :
    (round : M H ε Bool) (s.reading (gap ++ (line ++ post))) = round (s.reading (gap ++ (rest ++ post))) := by
  obtain ⟨indent, spelled, rfl, hindent, -, hspelled⟩ := hline.spelled
  obtain ⟨w, hw, hne⟩ := hline.opening
  obtain ⟨w', hw', hne'⟩ := opening_append hw hne hpost
  have hblanks : IsBlanks (gap ++ indent) := fun c hc => (List.mem_append.mp hc).elim (hgap c) (hindent c)
  let n := (gap ++ (indent ++ (spelled ++ rest) ++ post)).length + 1 + ((gap ++ (rest ++ post)).length + 1)
  have hn : tests.length < n := by
    have := hspelled.length_lt
    simp only [n, List.length_append]
    omega
  have hold : (s.reading (gap ++ (indent ++ (spelled ++ rest) ++ post))).tokens.size ≤ n := Nat.le_add_right _ _
  have hnew : (s.reading (gap ++ (rest ++ post))).tokens.size ≤ n := Nat.le_add_left _ _
  rw [round_eq hold, round_eq hnew]
  have htext : gap ++ (indent ++ (spelled ++ rest) ++ post) = (gap ++ indent) ++ (spelled ++ (rest ++ post)) := by
    simp only [List.append_assoc]
  obtain ⟨b, hb, hguards⟩ := guards_hold (ε := ε) (s := s) hspelled (rest ++ post) hn hblanks hs
  have hword {b : List Char} (hb : IsBlanks b) :
      (onTokens Tokenizer.word? : M H ε (Option String)) (s.reading (b ++ (rest ++ post))) =
        .ok (some w') { s with tokens := (Tokenizer.word? ⟨some (rest ++ post)⟩).2 } :=
    onTokens_reading ((Tokenizer.word?_blanks hb _).trans (Prod.ext hw' rfl))
  rw [htext, roundUpTo_tests hspelled hline.nonempty hblanks, bind_of_ok hguards, behindTests,
    roundUpTo_of_word (hword hgap), statement, if_neg hne']
  simp only [ne_eq, not_true_eq_false, if_false]
  rw [bind_of_ok (hword hb)]

/-- With a test that fails a round goes to the end of its line. -/
theorem round_fail (hline : Guarded tests line rest) (hpost : EndsLine post) (hgap : IsBlanks gap)
    (hs : ¬∀ t ∈ tests, t.holds s.host) :
    (round : M H ε Bool) (s.reading (gap ++ (line ++ post))) = .ok true { s with tokens := ⟨post.tail?⟩ } := by
  obtain ⟨indent, spelled, rfl, hindent, -, hspelled⟩ := hline.spelled
  have hblanks : IsBlanks (gap ++ indent) := fun c hc => (List.mem_append.mp hc).elim (hgap c) (hindent c)
  have htext : gap ++ (indent ++ (spelled ++ rest) ++ post) = (gap ++ indent) ++ (spelled ++ (rest ++ post)) := by
    simp only [List.append_assoc]
  have hn : tests.length < (s.reading (gap ++ (indent ++ (spelled ++ rest) ++ post))).tokens.size := by
    have := hspelled.length_lt
    simp only [reading_tokens, Tokenizer.size, List.length_append]
    omega
  rw [round, htext] at *
  obtain ⟨b, l, line, hb, hl, hguards⟩ := guards_fail (ε := ε) (s := s) hspelled (rest ++ post) hn hblanks hs
  rw [roundUpTo_tests hspelled hline.nonempty hblanks, bind_of_ok hguards, behindTests,
    bind_of_ok (skipLine_reading hb hl hline.line hpost)]
  rfl

/-! ### Texts with tests -/

/-- Blanks in front of a text do not matter to what is read of it. -/
theorem finish_blanks {b : List Char} (hb : IsBlanks b) (r : List Char) :
    (finish : M H ε Unit) (s.reading (b ++ r)) = finish (s.reading r) := by
  rw [finish_eq, finish_eq]
  exact bind_congr_result (round_congr (Tokenizer.word?_blanks hb r))

theorem finish_end {t : Description H} {b : List Char} (ht : t.tokens = ⟨none⟩) (hb : IsBlanks b) (hs : s.host = t.host) :
    outcome (finish t : EStateM.Result ε (Description H) Unit) = outcome (finish (s.reading b)) := by
  have hempty : Tokenizer.word? ⟨some b⟩ = (none, ⟨none⟩) := by
    simp only [Tokenizer.word?, List.dropWhile_eq_nil_iff.mpr hb]
  have hword : (round : M H ε Bool) (s.reading b) = .ok false { s with tokens := ⟨none⟩ } := by
    rw [round, roundUpTo, bind_of_ok (onTokens_reading hempty)]
    rfl
  have hnone : (round : M H ε Bool) t = .ok false t := roundUpTo_end (by rw [ht]; rfl)
  rw [finish_eq, finish_eq, bind_of_ok hword, bind_of_ok hnone]
  simp [outcome, hs]
  rfl

theorem finish_hold (hline : Guarded tests line rest) (hpost : EndsLine post) (hgap : IsBlanks gap)
    (hs : ∀ t ∈ tests, t.holds s.host) :
    (finish : M H ε Unit) (s.reading (gap ++ (line ++ post))) = finish (s.reading (gap ++ (rest ++ post))) := by
  rw [finish_eq, finish_eq]
  exact bind_congr_result (round_hold hline hpost hgap hs)

theorem finish_fail (hline : Guarded tests line rest) (hpost : EndsLine post) (hgap : IsBlanks gap)
    (hs : ¬∀ t ∈ tests, t.holds s.host) :
    outcome (finish (s.reading (gap ++ (line ++ post))) : EStateM.Result ε (Description H) Unit) =
      outcome (finish (s.reading (gap ++ post.tail))) := by
  rw [finish_eq, bind_of_ok (round_fail hline hpost hgap hs), if_pos rfl]
  rcases hpost with rfl | ⟨r, rfl⟩
  · rw [List.tail_nil, List.append_nil]
    exact finish_end rfl hgap rfl
  · exact congrArg outcome (finish_blanks hgap r).symm

/-- A line of a text with tests in front of it, read from its first word on. If all tests hold then the
text is as good as one with the rest of the line in its place, otherwise as one without the line.
As this is so for every host, it is so for one that writes down what is asked of it. -/
theorem parse_guarded {pre : List Char} {h : H} (hline : Guarded tests line rest) (hpost : EndsLine post)
    (hs : Reached (pre ++ (line ++ post)) h s) (hat : s.tokens = ⟨some (gap ++ (line ++ post))⟩)
    (hgap : IsBlanks gap) :
    parse (pre ++ (line ++ post)) h =
      parse (pre ++ if ∀ t ∈ tests, t.holds s.host then rest ++ post else post.tail) h := by
  have hleft : (line ++ post).length < s.tokens.size := by
    have hsize : s.tokens.size = (gap ++ (line ++ post)).length + 1 := by rw [hat]; rfl
    simp only [hsize, List.length_append]
    omega
  have hplace (text : List Char) : Reached (pre ++ text) h (s.reading (gap ++ text)) := by
    obtain ⟨q, hq, hreached⟩ := hs.local hleft text
    have htokens := congrArg Description.tokens hq
    rw [hat, reading_tokens, Tokenizer.mk.injEq, Option.some.injEq] at htokens
    rwa [List.append_cancel_right htokens]
  rw [(hplace _).parse_eq, (hplace _).parse_eq]
  split
  · rename_i hall
    rw [finish_hold hline hpost hgap hall]
  · rename_i hfail
    exact finish_fail hline hpost hgap hfail

end Description

/-! ### A host that writes down what is asked of it -/

inductive HostCall where
  | sceneNumber (n : Int16)
  | dropBehind (anim : Int)
  | expectMovie
  | movie (name : String)
  | screen (name : String)
  | music (name : Option String)
  | track (n : Int)
  | object (i : Nat)
  | bagPosition (x y : Int16)
  | bagEntry (name file : String)
  | nextScene (s : NextScene)
  | box (group : Nat) (b : SceneBox)
  deriving DecidableEq

/-- The calls so far, the last one first. All variables and the scene number are zero. -/
structure CallLog where
  calls : List HostCall := []

namespace CallLog

def note (c : HostCall) (l : CallLog) : CallLog := ⟨c :: l.calls⟩

instance : SceneHost CallLog SceneError where
  fault := id
  start := id
  var _ _ := 0
  sceneNumber _ := 0
  setSceneNumber n := note (.sceneNumber n)
  animations _ := []
  dropBehind i := modify (note (.dropBehind i))
  expectMovie := note .expectMovie
  loadMovie name := modify (note (.movie name))
  loadScreen name := modify (note (.screen name))
  setMusic name := note (.music name)
  setTrack n := note (.track n)
  findObject _ _ := none
  modifyObject i _ := note (.object i)
  objectAnimation _ _ := none
  status? _ _ := none
  setBagPosition x y := note (.bagPosition x y)
  hasBagEntry _ _ := false
  addBagEntry name file := modify (note (.bagEntry name file))
  addNextScene s := modify (note (.nextScene s))
  boxCount _ _ := 0
  box _ _ _ := {}
  pushBox group b := note (.box group b)

end CallLog

namespace Description

/-- Between movies, with a test in front of the first one. -/
def guardedMovie : Description CallLog where
  tokens := Tokenizer.ofText "GlobalMemory [1] == 0 -> A.MOV\nMoviesEnd".toList
  part := .movies
  host := {}

theorem numVars_pos : 0 < numVars := by decide

/-- The first variable is zero. -/
def firstIsZero : Test := ⟨⟨0, numVars_pos⟩, .eq, .number 0⟩

theorem guarded_movie : Guarded [firstIsZero] "GlobalMemory [1] == 0 -> A.MOV".toList "A.MOV".toList where
  nonempty := by decide
  spelled := by
    have hgap : IsGap [' '] := ⟨List.forall_mem_singleton.mpr rfl, by decide, by decide⟩
    have hindex : SpellsIndex firstIsZero.var "[1]".toList :=
      ⟨isWord_of_all (by decide) rfl (by decide), _, rfl, by decide⟩
    have hvalue : SpellsValue firstIsZero.value "0".toList := ⟨isWord_of_all (by decide) rfl (by decide), rfl⟩
    exact ⟨[], _, rfl, List.forall_mem_nil _, by decide, .test hindex hvalue hgap hgap hgap hgap (.arrow hgap)⟩
  line := by decide
  opening := ⟨"A.MOV", by decide, by decide⟩

theorem parse_guarded_movie :
    Guarded [firstIsZero] "GlobalMemory [1] == 0 -> A.MOV".toList "A.MOV".toList ∧
      EndsLine "\nMoviesEnd".toList ∧
      Reached ("Movies\n".toList ++ ("GlobalMemory [1] == 0 -> A.MOV".toList ++ "\nMoviesEnd".toList)) {} guardedMovie ∧
      guardedMovie.tokens = ⟨some ([] ++ ("GlobalMemory [1] == 0 -> A.MOV".toList ++ "\nMoviesEnd".toList))⟩ ∧
      IsBlanks [] ∧
      parse ("Movies\n".toList ++ ("GlobalMemory [1] == 0 -> A.MOV".toList ++ "\nMoviesEnd".toList)) ({} : CallLog) =
        parse ("Movies\n".toList ++
          if ∀ t ∈ [firstIsZero], t.holds guardedMovie.host then "A.MOV".toList ++ "\nMoviesEnd".toList
          else "\nMoviesEnd".toList.tail) {} := by
  have hreached : Reached ("Movies\n".toList ++ ("GlobalMemory [1] == 0 -> A.MOV".toList ++ "\nMoviesEnd".toList)) {}
      guardedMovie := Reached.start.next rfl
  have hpost : EndsLine "\nMoviesEnd".toList := Or.inr ⟨_, rfl⟩
  have hgap : IsBlanks [] := fun c hc => absurd hc List.not_mem_nil
  exact ⟨guarded_movie, hpost, hreached, rfl, hgap, parse_guarded guarded_movie hpost hreached rfl hgap⟩

end Description

end Adventure
