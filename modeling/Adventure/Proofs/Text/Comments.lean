import Adventure.Text.Comments
import Mathlib.Data.List.Basic

/-! Which bytes of a text are overwritten as comments, by their places: those from two slashes on to the end of the
line, and in what is left those of a line from its first visible byte on, if that one is a semicolon or a slash. All
other bytes stay, but for tabs. A text without comments comes out, so that comments are found only once. -/

namespace Adventure.Text

/-! ### Comments by their places -/

/-- A line ends at `i`: a line feed stands there, or a carriage return right before one. -/
def EndsAt (l : List UInt8) (i : Nat) : Prop := l[i]? = some 10 ∨ l[i]? = some 13 ∧ l[i + 1]? = some 10

def SlashesAt (l : List UInt8) (i : Nat) : Prop := l[i]? = some 47 ∧ l[i + 1]? = some 47

/-- No line ends up to place `i`. -/
def Unended (l : List UInt8) (i : Nat) : Prop := ∀ k ≤ i, ¬ EndsAt l k

/-- Two slashes stand at or before `i`, and their line has not ended there. -/
def InSlashes (l : List UInt8) (i : Nat) : Prop := ∃ s ≤ i, SlashesAt l s ∧ ∀ k ≤ i, s ≤ k → ¬ EndsAt l k

/-- No line feed stands from `i` on before `j`. -/
def SameLine (l : List UInt8) (i j : Nat) : Prop := ∀ k < j, i ≤ k → l[k]? ≠ some 10

/-- All that stands before `i` on its line are blanks. -/
def Leads (l : List UInt8) (i : Nat) : Prop := ∀ k < i, SameLine l k i → ∀ b ∈ l[k]?, isBlankByte b = true

/-- The first visible byte of a line stands at `i` and is a semicolon or a slash. -/
def OpensComment (l : List UInt8) (i : Nat) : Prop := (l[i]? = some 59 ∨ l[i]? = some 47) ∧ Leads l i

/-- Neither a line feed nor a carriage return stands at `i`. -/
def Inner (l : List UInt8) (i : Nat) : Prop := l[i]? ≠ some 10 ∧ l[i]? ≠ some 13

/-- Byte `i` lies in a line that is a comment, at or behind its first visible byte. -/
def InCommentLine (l : List UInt8) (i : Nat) : Prop := Inner l i ∧ ∃ f ≤ i, OpensComment l f ∧ SameLine l f i

instance (l : List UInt8) (i : Nat) : Decidable (EndsAt l i) := inferInstanceAs (Decidable (_ ∨ _))

instance (l : List UInt8) (i : Nat) : Decidable (SlashesAt l i) := inferInstanceAs (Decidable (_ ∧ _))

instance (l : List UInt8) (i : Nat) : Decidable (Unended l i) := inferInstanceAs (Decidable (∀ k ≤ i, _))

instance (l : List UInt8) (i : Nat) : Decidable (InSlashes l i) := inferInstanceAs (Decidable (∃ s ≤ i, _))

instance (l : List UInt8) (i j : Nat) : Decidable (SameLine l i j) := inferInstanceAs (Decidable (∀ k < j, _))

instance (l : List UInt8) (i : Nat) : Decidable (Leads l i) := inferInstanceAs (Decidable (∀ k < i, _))

instance (l : List UInt8) (i : Nat) : Decidable (OpensComment l i) := inferInstanceAs (Decidable (_ ∧ _))

instance (l : List UInt8) (i : Nat) : Decidable (Inner l i) := inferInstanceAs (Decidable (_ ∧ _))

instance (l : List UInt8) (i : Nat) : Decidable (InCommentLine l i) := inferInstanceAs (Decidable (_ ∧ ∃ f ≤ i, _))

/-- A text with spaces for its tabs and for all that stands behind two slashes. -/
def withoutSlashes (l : List UInt8) : List UInt8 := l.mapIdx fun i b => if InSlashes l i ∨ b = 9 then 32 else b

variable {l r : List UInt8} {b : UInt8} {i j : Nat}

theorem EndsAt.ne_slash (h : EndsAt l i) : l[i]? ≠ some 47 := by
  intro hslash
  rw [EndsAt, hslash] at h
  simp at h

theorem EndsAt.not_slashesAt (h : EndsAt l i) : ¬ SlashesAt l i := fun hs => h.ne_slash hs.1

theorem atLineEnd_iff (l : List UInt8) : atLineEnd l = true ↔ EndsAt l 0 := by
  match l with
  | [] => simp [atLineEnd, EndsAt]
  | [b] => by_cases hb : b = 10 <;> simp [atLineEnd, EndsAt, hb]
  | b :: c :: r =>
    by_cases hfeed : b = 10
    · simp [atLineEnd, EndsAt, hfeed]
    · by_cases hpair : b = 13 ∧ c = 10
      · simp [atLineEnd, EndsAt, hpair]
      · simp_all [atLineEnd, EndsAt]

/-! ### Behind the first byte -/

theorem unended_zero : Unended l 0 ↔ ¬ EndsAt l 0 := by simp [Unended]

theorem unended_succ : Unended (b :: r) (i + 1) ↔ ¬ EndsAt (b :: r) 0 ∧ Unended r i := by
  constructor
  · intro h
    exact ⟨h 0 (Nat.zero_le _), fun k hk => h (k + 1) (Nat.succ_le_succ hk)⟩
  · rintro ⟨h0, h⟩ (_ | k) hk
    · exact h0
    · exact h k (Nat.le_of_succ_le_succ hk)

theorem inSlashes_zero : InSlashes l 0 ↔ SlashesAt l 0 := by
  constructor
  · rintro ⟨s, hs, h, -⟩
    rwa [Nat.le_zero.mp hs] at h
  · intro h
    refine ⟨0, Nat.le_refl 0, h, fun k hk _ hend => ?_⟩
    rw [Nat.le_zero.mp hk] at hend
    exact hend.not_slashesAt h

theorem inSlashes_succ : InSlashes (b :: r) (i + 1) ↔ (SlashesAt (b :: r) 0 ∧ Unended r i) ∨ InSlashes r i := by
  constructor
  · rintro ⟨_ | s, hs, h, hline⟩
    · exact .inl ⟨h, fun k hk => hline (k + 1) (Nat.succ_le_succ hk) (Nat.zero_le _)⟩
    · exact .inr ⟨s, Nat.le_of_succ_le_succ hs, h,
        fun k hk hsk => hline (k + 1) (Nat.succ_le_succ hk) (Nat.succ_le_succ hsk)⟩
  · rintro (⟨h, hline⟩ | ⟨s, hs, h, hline⟩)
    · refine ⟨0, Nat.zero_le _, h, ?_⟩
      rintro (_ | k) hk -
      · exact fun hend => hend.not_slashesAt h
      · exact hline k (Nat.le_of_succ_le_succ hk)
    · refine ⟨s + 1, Nat.succ_le_succ hs, h, ?_⟩
      rintro (_ | k) hk hsk
      · exact absurd hsk (Nat.not_succ_le_zero s)
      · exact hline k (Nat.le_of_succ_le_succ hk) (Nat.le_of_succ_le_succ hsk)

theorem sameLine_self : SameLine l i i := fun _ hk hik => absurd hk (Nat.not_lt.mpr hik)

theorem inner_succ : Inner (b :: r) (i + 1) ↔ Inner r i := Iff.rfl

theorem sameLine_succ : SameLine (b :: r) (i + 1) (j + 1) ↔ SameLine r i j := by
  constructor
  · intro h k hk hik
    exact h (k + 1) (Nat.succ_lt_succ hk) (Nat.succ_le_succ hik)
  · rintro h (_ | k) hk hik
    · exact absurd hik (Nat.not_succ_le_zero i)
    · exact h k (Nat.lt_of_succ_lt_succ hk) (Nat.le_of_succ_le_succ hik)

theorem sameLine_zero_succ : SameLine (b :: r) 0 (j + 1) ↔ b ≠ 10 ∧ SameLine r 0 j := by
  constructor
  · intro h
    exact ⟨fun hb => h 0 (Nat.succ_pos j) (Nat.le_refl 0) (congrArg some hb),
      fun k hk _ => h (k + 1) (Nat.succ_lt_succ hk) (Nat.zero_le _)⟩
  · rintro ⟨hb, h⟩ (_ | k) hk -
    · exact fun h0 => hb (Option.some.inj h0)
    · exact h k (Nat.lt_of_succ_lt_succ hk) (Nat.zero_le _)

theorem leads_zero : Leads l 0 := fun k hk => absurd hk (Nat.not_lt_zero k)

theorem leads_succ : Leads (b :: r) (i + 1) ↔ (b ≠ 10 → SameLine r 0 i → isBlankByte b = true) ∧ Leads r i := by
  constructor
  · intro h
    refine ⟨fun hb hline => h 0 (Nat.succ_pos i) (sameLine_zero_succ.mpr ⟨hb, hline⟩) b rfl, fun k hk hline => ?_⟩
    exact h (k + 1) (Nat.succ_lt_succ hk) (sameLine_succ.mpr hline)
  · rintro ⟨h0, h⟩ (_ | k) hk hline c hc
    · obtain ⟨hb, hline⟩ := sameLine_zero_succ.mp hline
      rw [← Option.some.inj hc]
      exact h0 hb hline
    · exact h k (Nat.lt_of_succ_lt_succ hk) (sameLine_succ.mp hline) c hc

/-! ### From two slashes on -/

/-- What is overwritten of a text, if two slashes may stand before it on its first line. -/
def Slashed (inside : Bool) (l : List UInt8) (i : Nat) : Prop := (inside = true ∧ Unended l i) ∨ InSlashes l i

instance (inside : Bool) (l : List UInt8) (i : Nat) : Decidable (Slashed inside l i) :=
  inferInstanceAs (Decidable (_ ∨ _))

/-- Two slashes stand before what follows a byte just where that byte is overwritten. -/
theorem slashed_succ (inside : Bool) :
    Slashed inside (b :: r) (i + 1) ↔ Slashed (decide (Slashed inside (b :: r) 0)) r i := by
  have hslashes : SlashesAt (b :: r) 0 → ¬ EndsAt (b :: r) 0 := fun hs hend => hend.not_slashesAt hs
  simp only [Slashed, unended_zero, unended_succ, inSlashes_zero, inSlashes_succ, decide_eq_true_eq]
  tauto

theorem blankSlashes_cons (inside : Bool) :
    blankSlashes inside (b :: r) = (if Slashed inside (b :: r) 0 then 32 else b) ::
      blankSlashes (decide (Slashed inside (b :: r) 0)) r := by
  have hslashes : SlashesAt (b :: r) 0 ↔ b = 47 ∧ r.head? = some 47 := by
    simp [SlashesAt, List.head?_eq_getElem?]
  simp only [blankSlashes, atLineEnd_iff, ← hslashes, Slashed, unended_zero, inSlashes_zero]
  cases inside with
  | true =>
    by_cases hend : EndsAt (b :: r) 0
    · simp [hend, hend.not_slashesAt]
    · simp [hend]
  | false => by_cases hs : SlashesAt (b :: r) 0 <;> simp [hs]

theorem getElem?_blankSlashes (inside : Bool) (l : List UInt8) (i : Nat) :
    (blankSlashes inside l)[i]? = l[i]?.map fun b => if Slashed inside l i then 32 else b := by
  induction l generalizing inside i with
  | nil => rfl
  | cons b r ih =>
    rw [blankSlashes_cons]
    cases i with
    | zero => rfl
    | succ i => simp only [List.getElem?_cons_succ, ih, slashed_succ inside]

/-- A byte with a space for a tab. -/
def untab (b : UInt8) : UInt8 := if b = 9 then 32 else b

/-- Tabs and spaces stand in no line end and are no slashes. -/
theorem getElem?_untab {c : UInt8} (hc : c ≠ 9 ∧ c ≠ 32) : (l.map untab)[i]? = some c ↔ l[i]? = some c := by
  rw [List.getElem?_map]
  cases l[i]? with
  | none => simp
  | some b =>
    by_cases hb : b = 9
    · subst hb
      simp [untab, hc.1.symm, hc.2.symm]
    · simp [untab, hb]

theorem inSlashes_untab : InSlashes (l.map untab) i ↔ InSlashes l i := by
  simp only [InSlashes, SlashesAt, EndsAt, getElem?_untab (c := 47) (by decide), getElem?_untab (c := 13) (by decide),
    getElem?_untab (c := 10) (by decide)]

theorem blankSlashes_untab (l : List UInt8) : blankSlashes false (l.map untab) = withoutSlashes l := by
  apply List.ext_getElem?
  intro i
  rw [getElem?_blankSlashes, List.getElem?_map, Option.map_map, withoutSlashes, List.getElem?_mapIdx]
  refine congrArg (Option.map · l[i]?) (funext fun b => ?_)
  simp only [Function.comp_apply, Slashed, inSlashes_untab, Bool.false_eq_true, false_and, false_or, untab]
  by_cases hs : InSlashes l i <;> simp [hs]

/-! ### Lines of comment -/

/-- Byte `i` lies in a line of comment that begins below the first line feed. -/
def InLaterCommentLine (l : List UInt8) (i : Nat) : Prop :=
  Inner l i ∧ ∃ f ≤ i, ¬ SameLine l 0 f ∧ OpensComment l f ∧ SameLine l f i

theorem opensComment_zero : OpensComment (b :: r) 0 ↔ b = 59 ∨ b = 47 := by
  simp [OpensComment, leads_zero]

theorem isBlankByte_of_opens (hb : b = 59 ∨ b = 47) : isBlankByte b = false := by
  obtain rfl | rfl := hb <;> rfl

theorem ne_feed_of_visible (hb : isBlankByte b = false) : b ≠ 10 := by
  rintro rfl
  cases hb

/-- Where a line opens with a blank, what is a comment does not depend on it. -/
theorem opensComment_succ_of_blank (hb : isBlankByte b = true) : OpensComment (b :: r) (i + 1) ↔ OpensComment r i := by
  simp only [OpensComment, leads_succ, hb, implies_true, true_and, List.getElem?_cons_succ]

/-- Behind another byte, a comment opens on lines further below only. -/
theorem opensComment_succ_of_visible (hb : isBlankByte b = false) :
    OpensComment (b :: r) (i + 1) ↔ ¬ SameLine r 0 i ∧ OpensComment r i := by
  have hfeed := ne_feed_of_visible hb
  simp only [OpensComment, leads_succ, hb, hfeed, ne_eq, not_false_eq_true, List.getElem?_cons_succ, true_implies,
    Bool.false_eq_true]
  tauto

/-- A comment that a byte lies in opens at the first byte of the text or behind it. -/
theorem exists_le_succ {P : Nat → Prop} : (∃ f ≤ i + 1, P f) ↔ P 0 ∨ ∃ f ≤ i, P (f + 1) := by
  constructor
  · rintro ⟨_ | f, hf, h⟩
    · exact .inl h
    · exact .inr ⟨f, Nat.le_of_succ_le_succ hf, h⟩
  · rintro (h | ⟨f, hf, h⟩)
    · exact ⟨0, Nat.zero_le _, h⟩
    · exact ⟨f + 1, Nat.succ_le_succ hf, h⟩

theorem inCommentLine_succ_of_blank (hb : isBlankByte b = true) :
    InCommentLine (b :: r) (i + 1) ↔ InCommentLine r i := by
  have hopens : ¬ OpensComment (b :: r) 0 := fun h => by
    rw [isBlankByte_of_opens (opensComment_zero.mp h)] at hb
    cases hb
  simp only [InCommentLine, exists_le_succ, hopens, false_and, false_or, opensComment_succ_of_blank hb, sameLine_succ]
  rfl

theorem inCommentLine_succ_of_visible (hb : isBlankByte b = false) :
    InCommentLine (b :: r) (i + 1) ↔
      ((b = 59 ∨ b = 47) ∧ Inner r i ∧ SameLine r 0 i) ∨ InLaterCommentLine r i := by
  have hfeed := ne_feed_of_visible hb
  simp only [InCommentLine, exists_le_succ, opensComment_zero, opensComment_succ_of_visible hb, sameLine_succ,
    sameLine_zero_succ, hfeed, ne_eq, not_false_eq_true, true_and, InLaterCommentLine, and_assoc]
  rw [inner_succ]
  exact and_or_left.trans (or_congr_left and_left_comm)

theorem inLaterCommentLine_feed : InLaterCommentLine (10 :: r) (i + 1) ↔ InCommentLine r i := by
  simp only [InLaterCommentLine, exists_le_succ, sameLine_self, not_true_eq_false, false_and, false_or, sameLine_zero_succ,
    ne_eq, not_false_eq_true, true_and, opensComment_succ_of_blank (b := 10) rfl, sameLine_succ]
  rfl

theorem inLaterCommentLine_succ (hb : b ≠ 10) : InLaterCommentLine (b :: r) (i + 1) ↔ InLaterCommentLine r i := by
  have hopens (f : Nat) : ¬ SameLine r 0 f → (OpensComment (b :: r) (f + 1) ↔ OpensComment r f) := by
    intro hline
    cases hblank : isBlankByte b with
    | true => exact opensComment_succ_of_blank hblank
    | false => rw [opensComment_succ_of_visible hblank, and_iff_right hline]
  simp only [InLaterCommentLine, exists_le_succ, sameLine_self, not_true_eq_false, false_and, false_or,
    sameLine_zero_succ, hb, ne_eq, not_false_eq_true, true_and, sameLine_succ]
  refine and_congr Iff.rfl (exists_congr fun f => and_congr_right fun _ => ?_)
  exact and_congr_right fun hline => and_congr_left' (hopens f hline)

/-- What is overwritten of a text, by the part of the line that stands before it. -/
def LinePart.Overwrites (l : List UInt8) (i : Nat) : LinePart → Prop
  | lead => InCommentLine l i
  | kept => InLaterCommentLine l i
  | comment => (Inner l i ∧ SameLine l 0 i) ∨ InLaterCommentLine l i

instance (l : List UInt8) (i : Nat) : (part : LinePart) → Decidable (part.Overwrites l i)
  | .lead => inferInstanceAs (Decidable (InCommentLine l i))
  | .kept => inferInstanceAs (Decidable (Inner l i ∧ ∃ f ≤ i, _))
  | .comment => inferInstanceAs (Decidable (_ ∨ (Inner l i ∧ ∃ f ≤ i, _)))

/-- The part of the line that is reached behind a byte. -/
def LinePart.behind (b : UInt8) (part : LinePart) : LinePart :=
  if b = 10 then lead
  else match part with
    | lead => if isBlankByte b then lead else if b = 59 ∨ b = 47 then comment else kept
    | kept => kept
    | comment => comment

theorem inCommentLine_zero : InCommentLine (b :: r) 0 ↔ b = 59 ∨ b = 47 := by
  constructor
  · rintro ⟨-, f, hf, hopens, -⟩
    rw [Nat.le_zero.mp hf] at hopens
    exact opensComment_zero.mp hopens
  · intro hb
    refine ⟨?_, 0, Nat.le_refl 0, opensComment_zero.mpr hb, sameLine_self⟩
    obtain rfl | rfl := hb <;> simp [Inner]

theorem not_inLaterCommentLine_zero : ¬ InLaterCommentLine l 0 := by
  rintro ⟨-, f, hf, hline, -⟩
  exact hline fun k hk => absurd (Nat.lt_of_lt_of_le hk hf) (Nat.not_lt_zero k)

theorem LinePart.overwrites_succ (part : LinePart) :
    part.Overwrites (b :: r) (i + 1) ↔ (part.behind b).Overwrites r i := by
  unfold behind
  by_cases hb : b = 10
  · subst hb
    rw [if_pos rfl]
    cases part with
    | lead => exact inCommentLine_succ_of_blank rfl
    | kept => exact inLaterCommentLine_feed
    | comment => simp only [Overwrites, sameLine_zero_succ, ne_eq, not_true_eq_false, false_and, and_false, false_or,
        inLaterCommentLine_feed]
  · rw [if_neg hb]
    cases part with
    | lead =>
      cases hblank : isBlankByte b with
      | true => exact inCommentLine_succ_of_blank hblank
      | false =>
        by_cases hopens : b = 59 ∨ b = 47
        · simp [Overwrites, inCommentLine_succ_of_visible hblank, hopens]
        · simp [Overwrites, inCommentLine_succ_of_visible hblank, hopens]
    | kept => exact inLaterCommentLine_succ hb
    | comment =>
      simp only [Overwrites, inner_succ, sameLine_zero_succ, hb, ne_eq, not_false_eq_true, true_and,
        inLaterCommentLine_succ hb]

theorem blankLines_cons (part : LinePart) :
    blankLines part (b :: r) =
      (if part.Overwrites (b :: r) 0 then 32 else b) :: blankLines (part.behind b) r := by
  unfold LinePart.behind
  by_cases hb : b = 10
  · subst hb
    have hkeep : ¬ part.Overwrites (10 :: r) 0 := by
      cases part <;> simp [LinePart.Overwrites, InCommentLine, InLaterCommentLine, Inner]
    rw [if_neg hkeep, if_pos rfl]
    cases part <;> rfl
  · rw [if_neg hb]
    cases part with
    | lead =>
      rw [blankLines, if_neg hb]
      cases hblank : isBlankByte b with
      | true =>
        have hkeep : ¬ (b = 59 ∨ b = 47) := fun h => by
          rw [isBlankByte_of_opens h] at hblank
          cases hblank
        simp [LinePart.Overwrites, inCommentLine_zero, hkeep]
      | false => by_cases hopens : b = 59 ∨ b = 47 <;> simp [LinePart.Overwrites, inCommentLine_zero, hopens]
    | kept => simp [blankLines, hb, LinePart.Overwrites, not_inLaterCommentLine_zero]
    | comment =>
      rw [blankLines, if_neg hb]
      by_cases hreturn : b = 13 <;>
        simp [LinePart.Overwrites, Inner, not_inLaterCommentLine_zero, sameLine_self, hb, hreturn]

theorem getElem?_blankLines (part : LinePart) (l : List UInt8) (i : Nat) :
    (blankLines part l)[i]? = l[i]?.map fun b => if part.Overwrites l i then 32 else b := by
  induction l generalizing part i with
  | nil => cases part <;> rfl
  | cons b r ih =>
    rw [blankLines_cons]
    cases i with
    | zero => rfl
    | succ i => simp only [List.getElem?_cons_succ, ih, LinePart.overwrites_succ]

/-! ### What is left -/

theorem getElem?_withoutSlashes (l : List UInt8) (i : Nat) :
    (withoutSlashes l)[i]? = l[i]?.map fun b => if InSlashes l i ∨ b = 9 then 32 else b := by
  rw [withoutSlashes, List.getElem?_mapIdx]

theorem getElem?_stripComments (l : List UInt8) (i : Nat) :
    (stripComments l)[i]? =
      l[i]?.map fun b => if InSlashes l i ∨ InCommentLine (withoutSlashes l) i ∨ b = 9 then 32 else b := by
  have huntab : (fun b : UInt8 => if b = 9 then 32 else b) = untab := rfl
  rw [stripComments, huntab, blankSlashes_untab, getElem?_blankLines, getElem?_withoutSlashes, Option.map_map]
  refine congrArg (Option.map · l[i]?) (funext fun b => ?_)
  by_cases hline : InCommentLine (withoutSlashes l) i
  · simp [LinePart.Overwrites, hline]
  · simp [LinePart.Overwrites, hline]

theorem length_stripComments (l : List UInt8) : (stripComments l).length = l.length := by
  have hle (i : Nat) : (stripComments l).length ≤ i ↔ l.length ≤ i := by
    rw [← List.getElem?_eq_none_iff, ← List.getElem?_eq_none_iff, getElem?_stripComments, Option.map_eq_none_iff]
  exact Nat.le_antisymm ((hle _).mpr (Nat.le_refl _)) ((hle _).mp (Nat.le_refl _))

theorem InSlashes.not_feed (h : InSlashes l i) : l[i]? ≠ some 10 := by
  obtain ⟨s, hs, -, hline⟩ := h
  exact fun hfeed => hline i (Nat.le_refl i) hs (.inl hfeed)

/-- A byte that is not written over others is left where nothing was overwritten. -/
theorem map_blank_eq_some {o : Option UInt8} {P : UInt8 → Prop} [DecidablePred P] {c : UInt8} (hc : c ≠ 32) :
    (o.map fun b => if P b then 32 else b) = some c ↔ o = some c ∧ ¬ P c := by
  cases o with
  | none => simp
  | some b =>
    rw [Option.map_some, Option.some.injEq, Option.some.injEq]
    constructor
    · intro h
      by_cases hb : P b
      · exact absurd ((if_pos hb).symm.trans h).symm hc
      · rw [if_neg hb] at h
        exact ⟨h, h ▸ hb⟩
    · rintro ⟨rfl, hb⟩
      exact if_neg hb

section

variable {c : UInt8} (hc : c ≠ 32)
include hc

theorem withoutSlashes_eq_some : (withoutSlashes l)[i]? = some c ↔ l[i]? = some c ∧ ¬ InSlashes l i ∧ c ≠ 9 := by
  rw [getElem?_withoutSlashes, map_blank_eq_some hc, not_or]

theorem stripComments_eq_some :
    (stripComments l)[i]? = some c ↔ (withoutSlashes l)[i]? = some c ∧ ¬ InCommentLine (withoutSlashes l) i := by
  rw [getElem?_stripComments, map_blank_eq_some hc, withoutSlashes_eq_some hc]
  tauto

end

theorem withoutSlashes_feed : (withoutSlashes l)[i]? = some 10 ↔ l[i]? = some 10 := by
  rw [withoutSlashes_eq_some (by decide)]
  exact ⟨And.left, fun h => ⟨h, fun hs => hs.not_feed h, by decide⟩⟩

/-- Line feeds stay, and none are added. -/
theorem stripComments_feed : (stripComments l)[i]? = some 10 ↔ l[i]? = some 10 := by
  rw [stripComments_eq_some (by decide), withoutSlashes_feed]
  exact ⟨And.left, fun h => ⟨h, fun hline => hline.1.1 (withoutSlashes_feed.mpr h)⟩⟩

theorem sameLine_stripComments : SameLine (stripComments l) i j ↔ SameLine (withoutSlashes l) i j := by
  simp only [SameLine, ne_eq, stripComments_feed, withoutSlashes_feed]

theorem no_slashes (l : List UInt8) (i : Nat) : ¬ SlashesAt (stripComments l) i := by
  rintro ⟨h₁, h₂⟩
  rw [stripComments_eq_some (by decide), withoutSlashes_eq_some (by decide)] at h₁ h₂
  have hs : SlashesAt l i := ⟨h₁.1.1, h₂.1.1⟩
  refine h₁.1.2.1 ⟨i, Nat.le_refl i, hs, fun k hk hik hend => ?_⟩
  rw [Nat.le_antisymm hk hik] at hend
  exact hend.not_slashesAt hs

theorem SameLine.trans {k : Nat} (h : SameLine l i j) (h' : SameLine l j k) : SameLine l i k := by
  intro m hm him
  obtain hlt | hle := Nat.lt_or_ge m j
  · exact h m hlt him
  · exact h' m hm hle

/-- A line of comment goes on to its end. -/
theorem InCommentLine.mono (h : InCommentLine l i) (hij : i ≤ j) (hline : SameLine l i j) (hj : Inner l j) :
    InCommentLine l j := by
  obtain ⟨-, f, hf, hopens, hsame⟩ := h
  exact ⟨hj, f, Nat.le_trans hf hij, hopens, hsame.trans hline⟩

/-- What stands before a byte that is in no comment was not overwritten with a line of comment. -/
theorem leads_withoutSlashes (hinner : Inner (withoutSlashes l) i) (hkept : ¬ InCommentLine (withoutSlashes l) i)
    (h : Leads (stripComments l) i) : Leads (withoutSlashes l) i := by
  intro k hk hline b hb
  by_cases hspace : b = 32
  · rw [hspace]
    rfl
  · have hkept' : ¬ InCommentLine (withoutSlashes l) k := fun hin => hkept (hin.mono (Nat.le_of_lt hk) hline hinner)
    exact h k hk (sameLine_stripComments.mpr hline) b ((stripComments_eq_some hspace).mpr ⟨hb, hkept'⟩)

theorem no_commentLine (l : List UInt8) (i : Nat) : ¬ OpensComment (stripComments l) i := by
  rintro ⟨hopens, hleads⟩
  rw [stripComments_eq_some (by decide), stripComments_eq_some (by decide), ← or_and_right] at hopens
  obtain ⟨hopens, hkept⟩ := hopens
  have hinner : Inner (withoutSlashes l) i := by
    obtain h | h := hopens <;> simp [Inner, h]
  exact hkept ⟨hinner, i, Nat.le_refl i, ⟨hopens, leads_withoutSlashes hinner hkept hleads⟩, sameLine_self⟩

/-- A text without comments and tabs stays as it is. -/
theorem stripComments_of_plain (htabs : 9 ∉ l) (hslashes : ∀ i, ¬ SlashesAt l i) (hlines : ∀ i, ¬ OpensComment l i) :
    stripComments l = l := by
  have htab {i : Nat} {b : UInt8} (hi : l[i]? = some b) : b ≠ 9 := fun h9 => htabs (h9 ▸ List.mem_of_getElem? hi)
  have hcode (i : Nat) : ¬ InSlashes l i := fun ⟨s, _, hs, _⟩ => hslashes s hs
  have hwithout : withoutSlashes l = l := by
    apply List.ext_getElem?
    intro i
    cases hi : l[i]? with
    | none => rw [getElem?_withoutSlashes, hi, Option.map_none]
    | some b =>
      rw [getElem?_withoutSlashes, hi, Option.map_some, if_neg (not_or.mpr ⟨hcode i, htab hi⟩)]
  have hkept (i : Nat) : ¬ InCommentLine l i := fun ⟨_, f, _, hopens, _⟩ => hlines f hopens
  apply List.ext_getElem?
  intro i
  cases hi : l[i]? with
  | none => rw [getElem?_stripComments, hi, Option.map_none]
  | some b =>
    rw [getElem?_stripComments, hi, hwithout, Option.map_some,
      if_neg (not_or.mpr ⟨hcode i, not_or.mpr ⟨hkept i, htab hi⟩⟩)]

theorem no_tabs (l : List UInt8) : 9 ∉ stripComments l := by
  intro h
  obtain ⟨i, hi⟩ := List.mem_iff_getElem?.mp h
  rw [stripComments_eq_some (by decide), withoutSlashes_eq_some (by decide)] at hi
  exact hi.1.2.2 rfl

/-- Comments are overwritten and nothing else is: from two slashes of a line on up to its end, and, where the first
visible byte that is left of a line is a semicolon or a slash, from there on up to the line feed but for carriage
returns. The text keeps its length and its line feeds, tabs become spaces, no comment is left, and a second time nothing
changes. -/
theorem stripComments_exact (l : List UInt8) :
    (∀ i : Nat, (stripComments l)[i]? =
      l[i]?.map fun b => if InSlashes l i ∨ InCommentLine (withoutSlashes l) i ∨ b = 9 then 32 else b) ∧
    (stripComments l).length = l.length ∧
    (∀ i : Nat, (stripComments l)[i]? = some 10 ↔ l[i]? = some 10) ∧
    (∀ i : Nat, l[i]? = some 9 → (stripComments l)[i]? = some 32) ∧
    (∀ i, ¬ SlashesAt (stripComments l) i ∧ ¬ OpensComment (stripComments l) i) ∧
    stripComments (stripComments l) = stripComments l := by
  refine ⟨getElem?_stripComments l, length_stripComments l, fun _ => stripComments_feed, fun i hi => ?_,
    fun i => ⟨no_slashes l i, no_commentLine l i⟩, stripComments_of_plain (no_tabs l) (no_slashes l) (no_commentLine l)⟩
  rw [getElem?_stripComments, hi, Option.map_some, if_pos (.inr (.inr rfl))]

example : stripComments "a\t//b\r\n ;c\rd\ne".toUTF8.data.toList = "a    \r\n   \r \ne".toUTF8.data.toList := by
  decide +kernel

end Adventure.Text
