import Adventure.Proofs.Text.Words

/-! Words and lines as they are spelled, and how they are read. A word is read together with the blank behind it, which
may be the end of its line; and the blanks in front of the rest of a line may be ends of lines as well. So where nothing
but blanks is left of a line, the line that is read is another one below. -/

namespace Adventure

open Text

/-! ### Words between blanks -/

/-- A word without quotes. -/
structure IsWord (w : List Char) : Prop where
  visible : ∀ c ∈ w, isBlank c = false
  plain : ∃ c r, w = c :: r ∧ c ≠ '"'

def IsBlanks (g : List Char) : Prop := ∀ c ∈ g, isBlank c = true

/-- Blanks between two words of a line. -/
structure IsGap (g : List Char) : Prop where
  blanks : IsBlanks g
  nonempty : g ≠ []
  line : '\n' ∉ g

/-- A text without blanks that opens with no quote is a word. -/
theorem isWord_of_all {w r : List Char} {c : Char} (hall : w.all (fun c => !isBlank c)) (hw : w = c :: r) (hc : c ≠ '"') :
    IsWord w where
  visible d hd := by simpa using List.all_eq_true.mp hall d hd
  plain := ⟨c, r, hw, hc⟩

theorem isWord_arrow : IsWord "->".toList := isWord_of_all (by decide) rfl (by decide)

theorem IsGap.eq_cons {g : List Char} (hg : IsGap g) : ∃ c b, g = c :: b ∧ isBlank c = true ∧ IsBlanks b := by
  cases g with
  | nil => exact absurd rfl hg.nonempty
  | cons c b => exact ⟨c, b, rfl, hg.blanks c (by simp), fun d hd => hg.blanks d (List.mem_cons_of_mem c hd)⟩

theorem IsWord.line {w : List Char} (hw : IsWord w) : '\n' ∉ w :=
  fun h => absurd (hw.visible _ h) (by decide)

theorem IsWord.dropBlanks {w : List Char} (hw : IsWord w) (r : List Char) : (w ++ r).dropWhile isBlank = w ++ r := by
  obtain ⟨c, v, rfl, -⟩ := hw.plain
  rw [List.cons_append, List.dropWhile_cons_of_neg]
  simp [hw.visible c (by simp)]

namespace Tokenizer

/-- Blanks in front of a word do not matter. -/
theorem word?_blanks {b : List Char} (hb : IsBlanks b) (r : List Char) : word? ⟨some (b ++ r)⟩ = word? ⟨some r⟩ := by
  simp only [word?, List.dropWhile_append_of_pos hb]

/-- A word between blanks is read with the first blank behind it. -/
theorem word?_between {b w r : List Char} {c : Char} (hb : IsBlanks b) (hw : IsWord w) (hc : isBlank c = true) :
    word? ⟨some (b ++ (w ++ c :: r))⟩ = (some (String.ofList w), ⟨some r⟩) := by
  obtain ⟨d, v, rfl, hd⟩ := hw.plain
  have hvisible : ∀ x ∈ d :: v, (!isBlank x) = true := fun x hx => by simp [hw.visible x hx]
  have hskip : (b ++ (d :: v ++ c :: r)).dropWhile isBlank = d :: (v ++ c :: r) := by
    rw [List.dropWhile_append_of_pos hb, List.cons_append,
      List.dropWhile_cons_of_neg (by simp [hw.visible d (by simp)])]
  have htake : (d :: v ++ c :: r).takeWhile (fun x => !isBlank x) = d :: v := by
    rw [List.takeWhile_append_of_pos hvisible, List.takeWhile_cons_of_neg (by simp [hc]), List.append_nil]
  have hdrop : (d :: v ++ c :: r).dropWhile (fun x => !isBlank x) = c :: r := by
    rw [List.dropWhile_append_of_pos hvisible, List.dropWhile_cons_of_neg (by simp [hc])]
  rw [word?_plain hskip hd]
  exact Prod.ext (congrArg (some <| String.ofList ·) htake) (congrArg afterDelimiter hdrop)

/-- Of the gap behind a word the rest stays. -/
theorem word?_gap {b w g : List Char} (hb : IsBlanks b) (hw : IsWord w) (hg : IsGap g) (r : List Char) :
    ∃ b', IsBlanks b' ∧ '\n' ∉ b' ∧ word? ⟨some (b ++ (w ++ (g ++ r)))⟩ = (some (String.ofList w), ⟨some (b' ++ r)⟩) := by
  obtain ⟨c, b', rfl, hc, hb'⟩ := hg.eq_cons
  exact ⟨b', hb', fun h => hg.line (List.mem_cons_of_mem c h), word?_between hb hw hc⟩

/-! ### The rest of a line -/

/-- The rest of the line in which the text starts, without the blanks in front of it, and what stands below the line. -/
def lineAt (s : List Char) : Option String × Tokenizer :=
  match s.dropWhile (· ≠ '\n') with
  | [] => (some (String.ofList (s.dropWhile isBlank)), ⟨none⟩)
  | _ :: below => (some (String.ofList (chomp ((s.takeWhile (· ≠ '\n')).dropWhile isBlank))), ⟨some below⟩)

/-- The line in which the text starts has something besides blanks. -/
def Visible (s : List Char) : Prop := ∃ c ∈ s.takeWhile (· ≠ '\n'), isBlank c = false

/-- In front of what is left, the text has lines of blanks only. -/
inductive BlankLines : List Char → List Char → Prop
  | none {s : List Char} : BlankLines s s
  | line {l s r : List Char} : IsBlanks l → '\n' ∉ l → BlankLines s r → BlankLines (l ++ '\n' :: s) r

variable {l s r below : List Char}

/-- A text is its last line, or it has a line and a text below. -/
theorem line_split (s : List Char) : '\n' ∉ s ∨ ∃ l below, '\n' ∉ l ∧ s = l ++ '\n' :: below := by
  by_cases h : '\n' ∈ s
  · obtain ⟨l, below, rfl, hl⟩ := List.eq_append_cons_of_mem h
    exact .inr ⟨l, below, hl, rfl⟩
  · exact .inl h

theorem takeLine (h : '\n' ∉ l) (r : List Char) :
    (l ++ r).takeWhile (· ≠ '\n') = l ++ r.takeWhile (· ≠ '\n') :=
  List.takeWhile_append_of_pos fun c hc => decide_eq_true fun heq : c = '\n' => h (heq ▸ hc)

theorem dropLine (h : '\n' ∉ l) (r : List Char) : (l ++ r).dropWhile (· ≠ '\n') = r.dropWhile (· ≠ '\n') :=
  List.dropWhile_append_of_pos fun c hc => decide_eq_true fun heq : c = '\n' => h (heq ▸ hc)

theorem visible_line (h : '\n' ∉ l) : Visible (l ++ '\n' :: below) ↔ ∃ c ∈ l, isBlank c = false := by
  rw [Visible, takeLine h, List.takeWhile_cons_of_neg (by decide), List.append_nil]

theorem lineAt_last (h : '\n' ∉ s) : lineAt s = (some (String.ofList (s.dropWhile isBlank)), ⟨none⟩) := by
  have hdrop := dropLine h []
  rw [List.append_nil, List.dropWhile_nil] at hdrop
  rw [lineAt, hdrop]

theorem lineAt_line (h : '\n' ∉ l) :
    lineAt (l ++ '\n' :: below) = (some (String.ofList (chomp (l.dropWhile isBlank))), ⟨some below⟩) := by
  rw [lineAt, dropLine h, List.dropWhile_cons_of_neg (by decide), takeLine h, List.takeWhile_cons_of_neg (by decide),
    List.append_nil]

theorem line?_blanks (h : IsBlanks l) (s : List Char) : line? ⟨some (l ++ s)⟩ = line? ⟨some s⟩ := by
  simp only [line?, List.dropWhile_append_of_pos h]

theorem line?_last (h : '\n' ∉ s) : line? ⟨some s⟩ = lineAt s := by
  have hrest : '\n' ∉ s.dropWhile isBlank := fun hc => h ((List.dropWhile_sublist _).subset hc)
  have hdrop := dropLine hrest []
  rw [List.append_nil, List.dropWhile_nil] at hdrop
  rw [lineAt_last h, line?]
  simp only [hdrop]

/-- Where the line has something besides blanks, the rest of it is read. -/
theorem line?_line (h : '\n' ∉ l) (hvisible : ∃ c ∈ l, isBlank c = false) :
    line? ⟨some (l ++ '\n' :: below)⟩ = (some (String.ofList (chomp (l.dropWhile isBlank))), ⟨some below⟩) := by
  have hrest : '\n' ∉ l.dropWhile isBlank := fun hc => h ((List.dropWhile_sublist _).subset hc)
  have hne : l.dropWhile isBlank ≠ [] := by
    obtain ⟨c, hc, hcv⟩ := hvisible
    intro hnil
    have hall := List.dropWhile_eq_nil_iff.mp hnil c hc
    rw [hcv] at hall
    cases hall
  have hskip : (l ++ '\n' :: below).dropWhile isBlank = l.dropWhile isBlank ++ '\n' :: below := by
    rw [List.dropWhile_append, if_neg (by simpa using hne)]
  have hend : (l.dropWhile isBlank ++ '\n' :: below).dropWhile (· ≠ '\n') = '\n' :: below := by
    rw [dropLine hrest, List.dropWhile_cons_of_neg (by decide)]
  have htake : (l.dropWhile isBlank ++ '\n' :: below).takeWhile (· ≠ '\n') = l.dropWhile isBlank := by
    rw [takeLine hrest, List.takeWhile_cons_of_neg (by decide), List.append_nil]
  simp only [line?, hskip, hend, htake]

theorem line?_visible (h : Visible s) : line? ⟨some s⟩ = lineAt s := by
  obtain hlast | ⟨l, below, hl, rfl⟩ := line_split s
  · exact line?_last hlast
  · rw [lineAt_line hl, line?_line hl ((visible_line hl).mp h)]

theorem isBlanks_line (h : '\n' ∉ l) (hblank : ¬ Visible (l ++ '\n' :: below)) : IsBlanks l := by
  intro c hc
  by_contra hvisible
  exact hblank ((visible_line h).mpr ⟨c, hc, by simpa using hvisible⟩)

/-- Lines of blanks are skipped. -/
theorem line?_below (hblank : IsBlanks l) (below : List Char) :
    line? ⟨some (l ++ '\n' :: below)⟩ = line? ⟨some below⟩ := by
  have hend : IsBlanks (l ++ ['\n']) := fun c hc =>
    (List.mem_append.mp hc).elim (hblank c) fun h => by rw [List.mem_singleton.mp h]; rfl
  have hskip := line?_blanks hend below
  rwa [List.append_assoc] at hskip

/-- The line that is read is the first one with something besides blanks, or the last one. -/
theorem line?_eq (s : List Char) : ∃ r, BlankLines s r ∧ (Visible r ∨ '\n' ∉ r) ∧ line? ⟨some s⟩ = lineAt r := by
  induction hn : s.length using Nat.strong_induction_on generalizing s with
  | _ n ih =>
    obtain hlast | ⟨l, below, hl, rfl⟩ := line_split s
    · exact ⟨s, .none, .inr hlast, line?_last hlast⟩
    · by_cases hvisible : Visible (l ++ '\n' :: below)
      · exact ⟨_, .none, .inl hvisible, line?_visible hvisible⟩
      · have hblank := isBlanks_line hl hvisible
        have hshort : below.length < n := by
          rw [← hn, List.length_append, List.length_cons]
          omega
        obtain ⟨r, hlines, hr, hline⟩ := ih _ hshort below rfl
        exact ⟨r, .line hblank hl hlines, hr, (line?_below hblank below).trans hline⟩

/-! ### Readings in a row -/

theorem lineAt_size (s : List Char) : (lineAt s).2.size ≤ s.length := by
  obtain hlast | ⟨l, below, hl, rfl⟩ := line_split s
  · rw [lineAt_last hlast]
    exact Nat.zero_le _
  · rw [lineAt_line hl, List.length_append, List.length_cons]
    exact Nat.le_add_left _ _

theorem BlankLines.length_le (h : BlankLines s r) : r.length ≤ s.length := by
  induction h with
  | none => exact Nat.le_refl _
  | line _ _ _ ih =>
    rw [List.length_append, List.length_cons]
    omega

/-- Something is taken with every line. -/
theorem line?_size (s : List Char) : (line? ⟨some s⟩).2.size ≤ s.length := by
  obtain ⟨r, hlines, -, hline⟩ := line?_eq s
  rw [hline]
  exact Nat.le_trans (lineAt_size r) hlines.length_le

/-- What can be read of a text. -/
inductive Call where
  | word | line | int | arrayIndex | coord
  deriving DecidableEq, Repr

/-- What is left behind a call, also behind one that fails. -/
def Call.run (t : Tokenizer) : Call → Tokenizer
  | .word => t.word?.2
  | .line => t.line?.2
  | .int => t.int.2
  | .arrayIndex => t.arrayIndex.2
  | .coord => t.coord.2

def afterCalls (text : List Char) (calls : List Call) : Tokenizer := calls.foldl Call.run (ofText text)

theorem Call.suffix (c : Call) (t : Tokenizer) : (c.run t).text <:+ t.text := by
  cases c with
  | word => exact shrinks_word?.text t
  | line => exact shrinks_line?.text t
  | int => exact shrinks_int.text t
  | arrayIndex => exact shrinks_arrayIndex.text t
  | coord => exact shrinks_coord.text t

theorem afterCalls_suffix (text : List Char) (calls : List Call) : (afterCalls text calls).text <:+ text := by
  have hfold (t : Tokenizer) : (calls.foldl Call.run t).text <:+ t.text := by
    induction calls generalizing t with
    | nil => exact List.suffix_refl _
    | cons c calls ih => exact (ih _).trans (c.suffix t)
  exact hfold (ofText text)

/-- What is left of the line of the last character that was taken: nothing behind the end of the line. -/
def restOfLine (taken s : List Char) : Option String × Tokenizer :=
  if taken.getLast? = some '\n' then (some "", ⟨some s⟩) else lineAt s

theorem line?_eq_restOfLine {taken : List Char} :
    line? ⟨some s⟩ = restOfLine taken s ↔ taken.getLast? ≠ some '\n' ∧ (Visible s ∨ '\n' ∉ s) := by
  by_cases htaken : taken.getLast? = some '\n'
  · have hsize := line?_size s
    rw [restOfLine, if_pos htaken]
    constructor
    · intro hline
      rw [hline] at hsize
      exact absurd hsize (Nat.not_succ_le_self _)
    · rintro ⟨hne, -⟩
      exact absurd htaken hne
  · rw [restOfLine, if_neg htaken]
    constructor
    · intro hline
      refine ⟨htaken, ?_⟩
      obtain hlast | ⟨l, below, hl, rfl⟩ := line_split s
      · exact .inr hlast
      · by_contra hblank
        have hsize := line?_size below
        rw [← line?_below (isBlanks_line hl fun h => hblank (.inl h)), hline, lineAt_line hl] at hsize
        exact absurd hsize (Nat.not_succ_le_self _)
    · rintro ⟨-, hvisible | hlast⟩
      · exact line?_visible hvisible
      · exact line?_last hlast

/-- What is read as the rest of a line, whatever was read of the text before. Behind the end of the text there is
nothing. Anywhere else it is the rest of the first line that has something besides blanks, or else of the last one, and
what stands below that line is left. This is the line of the last character that was taken just when that one does not end
its line, and something besides blanks or no other line comes behind it. -/
theorem line?_afterCalls (text : List Char) (calls : List Call) :
    ((afterCalls text calls).rest = none → (afterCalls text calls).line? = (none, ⟨none⟩)) ∧
      ∀ s, (afterCalls text calls).rest = some s → ∃ taken, text = taken ++ s ∧
        (∃ r, BlankLines s r ∧ (Visible r ∨ '\n' ∉ r) ∧ (afterCalls text calls).line? = lineAt r) ∧
        ((afterCalls text calls).line? = restOfLine taken s ↔
          taken.getLast? ≠ some '\n' ∧ (Visible s ∨ '\n' ∉ s)) := by
  have hsuffix := afterCalls_suffix text calls
  generalize afterCalls text calls = t at hsuffix ⊢
  obtain ⟨rest⟩ := t
  constructor
  · rintro rfl
    rfl
  · rintro s rfl
    obtain ⟨taken, rfl⟩ := hsuffix
    exact ⟨taken, rfl, line?_eq s, line?_eq_restOfLine⟩

/-- The line of an arrow, with a text behind it. -/
theorem line?_afterCalls_arrow : (afterCalls "-> Hello\r\nN01".toList [.word]).line? =
    restOfLine "-> ".toList "Hello\r\nN01".toList := by
  obtain ⟨taken, htaken, -, hline⟩ := (line?_afterCalls "-> Hello\r\nN01".toList [.word]).2 "Hello\r\nN01".toList rfl
  have htaken' : taken = "-> ".toList := (List.append_cancel_right htaken).symm
  subst htaken'
  exact hline.mpr ⟨by decide, .inl ⟨'H', by decide, rfl⟩⟩

/-- Behind a word that ends its line, the rest of the line is not what is read: here it is a line below. -/
theorem not_always_restOfLine : ¬ ∀ (text taken s : List Char) (calls : List Call), text = taken ++ s →
    (afterCalls text calls).rest = some s → (afterCalls text calls).line? = restOfLine taken s := by
  intro h
  have hline := h "->\nN01\nN02".toList "->\n".toList "N01\nN02".toList [.word] rfl rfl
  have hread : some "N01" = some "" := congrArg Prod.fst hline
  exact absurd hread (by decide)

end Tokenizer

end Adventure
