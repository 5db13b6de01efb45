import Adventure.Dialogue
import Adventure.Proofs.Text.Lines

/-! Dialogues as they are written, a line for each entry, and what is read from them. Whatever blanks stand between its
words, a line gives its entry, since each blank behind a word is a blank of the line and its text is there to be found. -/

namespace Adventure

open Text

/-! ### How entries are written -/

/-- What is said: something of one line that neither begins with a blank nor ends with white space. -/
structure IsSpoken (s : List Char) : Prop where
  line : '\n' ∉ s
  first : ∃ c r, s = c :: r ∧ isBlank c = false
  last : ∃ r c, s = r ++ [c] ∧ Dialogue.isSpace c = false

namespace DialogueEntry

def verb (e : DialogueEntry) : String := if e.goes then "Goto" else "End"

/-- An entry that can be written. -/
structure Writable (e : DialogueEntry) : Prop where
  id : IsWord e.id.toList
  next : IsWord e.next.toList
  speech : IsWord e.speech.toList
  text : IsSpoken e.text.toList

/-- What stands behind the name of an entry, up to the white space behind its text. -/
inductive SpellsRest (e : DialogueEntry) : List Char → Prop
  | words {g₁ g₂ g₃ g₄ space : List Char} (h₁ : IsGap g₁) (h₂ : IsGap g₂) (h₃ : IsGap g₃) (h₄ : IsGap g₄)
    (hspace : ∀ c ∈ space, Dialogue.isSpace c = true) (hline : '\n' ∉ space) :
    SpellsRest e (e.verb.toList ++ (g₁ ++ (e.next.toList ++ (g₂ ++ (e.speech.toList ++ (g₃ ++ ("->".toList ++
      (g₄ ++ (e.text.toList ++ space)))))))))

/-- A line of an entry, with any blanks in front of it and between its words. -/
inductive Spells (e : DialogueEntry) : List Char → Prop
  | line {indent gap rest : List Char} (hindent : IsBlanks indent) (hgap : IsGap gap) (hrest : e.SpellsRest rest) :
    Spells e (indent ++ (e.id.toList ++ (gap ++ rest)))

end DialogueEntry

/-- An end of a line: a line feed, or a carriage return and a line feed. -/
inductive LineEnd : List Char → Prop
  | lf : LineEnd ['\n']
  | crlf : LineEnd ['\r', '\n']

/-- The lines of entries, one below the other. The last one need not have an end. -/
inductive Renders : List DialogueEntry → List Char → Prop
  | nil : Renders [] []
  | last {e : DialogueEntry} {line : List Char} : e.Spells line → Renders [e] line
  | cons {e : DialogueEntry} {entries : List DialogueEntry} {line stop rest : List Char} :
      e.Spells line → LineEnd stop → Renders entries rest → Renders (e :: entries) (line ++ (stop ++ rest))

namespace Dialogue

variable {e : DialogueEntry} {b r line : List Char} {t : Tokenizer} {n : Nat}

/-! ### Reading an entry -/

/-- What stands behind a line, and what is left below it. -/
inductive Below : List Char → Tokenizer → Prop
  | last : Below [] ⟨none⟩
  | lf {r : List Char} : Below ('\n' :: r) ⟨some r⟩
  | crlf {r : List Char} : Below ('\r' :: '\n' :: r) ⟨some r⟩

theorem below_stop {stop : List Char} (h : LineEnd stop) (r : List Char) : Below (stop ++ r) ⟨some r⟩ := by
  cases h with
  | lf => exact .lf
  | crlf => exact .crlf

/-- White space behind a text is cut off, and with it a carriage return. -/
theorem trimEnd_space {s space : List Char} (hs : IsSpoken s) (hspace : ∀ c ∈ space, isSpace c = true) :
    trimEnd (String.ofList (s ++ space)) = String.ofList s := by
  obtain ⟨l, c, rfl, hc⟩ := hs.last
  have hreverse : (l ++ [c] ++ space).reverse = space.reverse ++ (c :: l.reverse) := by simp
  have hdrop : (space.reverse ++ (c :: l.reverse)).dropWhile isSpace = c :: l.reverse := by
    rw [List.dropWhile_append_of_pos (by simpa using hspace), List.dropWhile_cons_of_neg (by simp [hc])]
  rw [trimEnd, String.toList_ofList, hreverse, hdrop, List.reverse_cons, List.reverse_reverse]

theorem trimEnd_chomp (s : List Char) : trimEnd (String.ofList (Tokenizer.chomp s)) = trimEnd (String.ofList s) := by
  unfold Tokenizer.chomp
  split
  · rename_i h
    obtain ⟨l, rfl⟩ := List.getLast?_eq_some_iff.mp h
    have hspace : isSpace '\r' = true := by decide
    simp [trimEnd, hspace]
  · rfl

/-- A text in its line is read without the blanks in front of it. -/
theorem line?_spoken_end {s space : List Char} (hb : IsBlanks b) (hline : '\n' ∉ b) (hs : IsSpoken s)
    (hspace : '\n' ∉ space) (r : List Char) :
    Tokenizer.line? ⟨some (b ++ (s ++ space))⟩ = (some (String.ofList (s ++ space)), ⟨none⟩) ∧
      Tokenizer.line? ⟨some (b ++ (s ++ (space ++ '\n' :: r)))⟩ =
        (some (String.ofList (Tokenizer.chomp (s ++ space))), ⟨some r⟩) := by
  have hwhole : '\n' ∉ b ++ (s ++ space) := by simp only [List.mem_append, hline, hs.line, hspace, or_self, not_false_eq_true]
  obtain ⟨c, v, rfl, hc⟩ := hs.first
  have hdrop : (b ++ (c :: v ++ space)).dropWhile isBlank = c :: v ++ space := by
    rw [List.dropWhile_append_of_pos hb, List.cons_append, List.dropWhile_cons_of_neg (by simp [hc])]
  constructor
  · rw [Tokenizer.line?_last hwhole, Tokenizer.lineAt_last hwhole, hdrop]
  · have hread : Tokenizer.line? ⟨some (b ++ (c :: v ++ space) ++ '\n' :: r)⟩ = _ :=
      Tokenizer.line?_line hwhole ⟨c, by simp, hc⟩
    rw [hdrop, List.append_assoc, List.append_assoc] at hread
    exact hread

/-- The text of an entry is read in its line, and what stands below the line is left. -/
theorem line?_spoken {s space : List Char} (hb : IsBlanks b) (hline : '\n' ∉ b) (hs : IsSpoken s)
    (hspace : ∀ c ∈ space, isSpace c = true) (hspaceLine : '\n' ∉ space) (hr : Below r t) :
    ∃ w, Tokenizer.line? ⟨some (b ++ (s ++ (space ++ r)))⟩ = (some w, t) ∧ trimEnd w = String.ofList s := by
  cases hr with
  | last =>
    rw [List.append_nil]
    exact ⟨_, (line?_spoken_end hb hline hs hspaceLine []).1, trimEnd_space hs hspace⟩
  | @lf r =>
    exact ⟨_, (line?_spoken_end hb hline hs hspaceLine r).2, (trimEnd_chomp _).trans (trimEnd_space hs hspace)⟩
  | @crlf r =>
    -- the carriage return is white space behind the text
    have hreturn : ∀ c ∈ space ++ ['\r'], isSpace c = true := fun c hc =>
      (List.mem_append.mp hc).elim (hspace c) fun h => by rw [List.mem_singleton.mp h]; decide
    have hreturnLine : '\n' ∉ space ++ ['\r'] := by simp [hspaceLine]
    have hread := (line?_spoken_end hb hline hs hreturnLine r).2
    rw [List.append_assoc space] at hread
    exact ⟨_, hread, (trimEnd_chomp _).trans (trimEnd_space hs hreturn)⟩

theorem isWord_verb (e : DialogueEntry) : IsWord e.verb.toList := by
  unfold DialogueEntry.verb
  split
  · exact isWord_of_all (by decide) rfl (by decide)
  · exact isWord_of_all (by decide) rfl (by decide)

theorem parseEntry_spells (he : e.Writable) (h : e.SpellsRest line) (hb : IsBlanks b) (hr : Below r t) :
    parseEntry e.id ⟨some (b ++ (line ++ r))⟩ = .ok (e, t) := by
  cases h with
  | @words g₁ g₂ g₃ g₄ space h₁ h₂ h₃ h₄ hspace hline =>
    simp only [List.append_assoc]
    obtain ⟨b₁, hb₁, -, hverb⟩ := Tokenizer.word?_gap hb (isWord_verb e) h₁ (e.next.toList ++ (g₂ ++ (e.speech.toList ++
      (g₃ ++ ("->".toList ++ (g₄ ++ (e.text.toList ++ (space ++ r))))))))
    obtain ⟨b₂, hb₂, -, hnext⟩ := Tokenizer.word?_gap hb₁ he.next h₂ (e.speech.toList ++
      (g₃ ++ ("->".toList ++ (g₄ ++ (e.text.toList ++ (space ++ r))))))
    obtain ⟨b₃, hb₃, -, hspeech⟩ := Tokenizer.word?_gap hb₂ he.speech h₃ ("->".toList ++
      (g₄ ++ (e.text.toList ++ (space ++ r))))
    obtain ⟨b₄, hb₄, hn₄, harrow⟩ := Tokenizer.word?_gap hb₃ isWord_arrow h₄ (e.text.toList ++ (space ++ r))
    obtain ⟨w, htext, hw⟩ := line?_spoken hb₄ hn₄ he.text hspace hline hr
    simp only [parseEntry, hverb, hnext, hspeech, harrow, htext, hw, Option.getD_some, String.ofList_toList, if_true]
    -- the verb tells which kind of entry it is
    obtain ⟨id, goes, next, speech, text⟩ := e
    cases goes with
    | true => rfl
    | false => rfl

/-! ### Reading all entries -/

theorem parseFrom_spells (he : e.Writable) (h : e.Spells line) (hr : Below r t) (n : Nat) :
    parseFrom 0 ⟨some (line ++ r)⟩ = .error .tooManyEntries ∧
      parseFrom (n + 1) ⟨some (line ++ r)⟩ = (parseFrom n t).map (e :: ·) := by
  cases h with
  | @line indent gap rest hindent hgap hrest =>
    simp only [List.append_assoc]
    obtain ⟨b, hb, -, hid⟩ := Tokenizer.word?_gap hindent he.id hgap (rest ++ r)
    have hentry := parseEntry_spells he hrest hb hr
    constructor
    · unfold parseFrom
      simp only [hid, Tokenizer.isExhausted, Option.isNone_some]
      rfl
    · rw [parseFrom]
      simp only [hid, Tokenizer.isExhausted, Option.isNone_some, String.ofList_toList, hentry]
      cases parseFrom n t <;> rfl

theorem parseFrom_end (n : Nat) : parseFrom n ⟨none⟩ = .ok [] := by
  cases n <;> rfl

theorem parseFrom_nil (n : Nat) : parseFrom n ⟨some []⟩ = .ok [] := by
  cases n <;> rfl

theorem parseFrom_renders {entries : List DialogueEntry} {text : List Char} (h : Renders entries text)
    (he : ∀ e ∈ entries, e.Writable) (n : Nat) :
    parseFrom n ⟨some text⟩ = if entries.length ≤ n then .ok entries else .error .tooManyEntries := by
  induction h generalizing n with
  | nil => exact (parseFrom_nil n).trans (if_pos (Nat.zero_le n)).symm
  | @last e line hline =>
    have hread := parseFrom_spells (he e (by simp)) hline .last
    rw [List.append_nil] at hread
    cases n with
    | zero => exact (hread 0).1
    | succ n =>
      rw [(hread n).2, parseFrom_end]
      exact (if_pos (Nat.succ_le_succ (Nat.zero_le n))).symm
  | @cons e entries line stop rest hline hstop _ ih =>
    have hread := parseFrom_spells (he e (by simp)) hline (below_stop hstop rest)
    cases n with
    | zero => exact (hread 0).1
    | succ n =>
      rw [(hread n).2, ih (fun e' he' => he e' (List.mem_cons_of_mem e he')) n]
      by_cases hlen : entries.length ≤ n
      · rw [if_pos hlen]
        exact (if_pos (Nat.succ_le_succ hlen)).symm
      · rw [if_neg hlen]
        exact (if_neg fun h => hlen (Nat.le_of_succ_le_succ h)).symm

/-- Entries that are written as lines are read back, whatever blanks stand between their words and however their lines
end, if there are not more than forty of them. -/
theorem parse_renders {entries : List DialogueEntry} {text : List Char} (h : Renders entries text)
    (he : ∀ e ∈ entries, e.Writable) :
    (entries.length ≤ 40 → parse text = .ok entries) ∧ (41 ≤ entries.length → parse text = .error .tooManyEntries) := by
  have hread : parse text = if entries.length ≤ 40 then .ok entries else .error .tooManyEntries :=
    parseFrom_renders h he maxEntries
  constructor
  · intro hfew
    rw [hread, if_pos hfew]
  · intro hmany
    rw [hread, if_neg (Nat.not_le.mpr hmany)]

def greeting : DialogueEntry := ⟨"J01", true, "N01", "a.wav", "Hello there."⟩

def farewell : DialogueEntry := ⟨"N01", false, "3", "b.wav", "Bye"⟩

theorem writable_greeting : greeting.Writable where
  id := isWord_of_all (by decide) rfl (by decide)
  next := isWord_of_all (by decide) rfl (by decide)
  speech := isWord_of_all (by decide) rfl (by decide)
  text := ⟨by decide, ⟨'H', _, rfl, rfl⟩, ⟨"Hello there".toList, '.', rfl, by decide⟩⟩

theorem writable_farewell : farewell.Writable where
  id := isWord_of_all (by decide) rfl (by decide)
  next := isWord_of_all (by decide) rfl (by decide)
  speech := isWord_of_all (by decide) rfl (by decide)
  text := ⟨by decide, ⟨'B', _, rfl, rfl⟩, ⟨"By".toList, 'e', rfl, by decide⟩⟩

/-- Two lines, with two blanks between two words and without an end behind the last line. -/
theorem parse_renders_greeting :
    parse "J01 Goto  N01 a.wav -> Hello there.\r\nN01 End 3 b.wav -> Bye".toList = .ok [greeting, farewell] := by
  have hgap (n : Nat) : IsGap (List.replicate (n + 1) ' ') :=
    ⟨fun c hc => by rw [List.eq_of_mem_replicate hc]; rfl, nofun, fun h => absurd (List.eq_of_mem_replicate h) (by decide)⟩
  have hnone : IsBlanks [] := nofun
  have hfirst : greeting.Spells "J01 Goto  N01 a.wav -> Hello there.".toList :=
    .line hnone (hgap 0) (.words (hgap 1) (hgap 0) (hgap 0) (hgap 0) (nofun : ∀ c ∈ [], isSpace c = true) nofun)
  have hlast : farewell.Spells "N01 End 3 b.wav -> Bye".toList :=
    .line hnone (hgap 0) (.words (hgap 0) (hgap 0) (hgap 0) (hgap 0) (nofun : ∀ c ∈ [], isSpace c = true) nofun)
  refine (parse_renders (.cons hfirst .crlf (.last hlast)) ?_).1 (by decide)
  simp only [List.mem_cons, List.not_mem_nil, or_false, forall_eq_or_imp, forall_eq]
  exact ⟨writable_greeting, writable_farewell⟩

end Dialogue

end Adventure
