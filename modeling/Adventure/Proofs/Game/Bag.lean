import Adventure.Game.Frame
import Adventure.Proofs.Text.Case

/-! What becomes of the bag. Entries are added, dropped and selected in a few ways, and in whichever way it is
changed, no two of its entries have one name and what is selected in it is there. -/

namespace Adventure.Bag

/-- The ways in which the player turns to another action or entry in the window of the bag. -/
inductive Selecting (b : Bag) : Bag → Prop
  | left : Selecting b b.moveLeft
  | right : Selecting b b.moveRight
  | click (x y : Int) : Selecting b (b.click x y)

/-- The ways in which the bag changes. A new entry has one of the names that are known. -/
inductive Change (known : String → Prop) (b : Bag) : Bag → Prop
  | selects {b' : Bag} (h : Selecting b b') : Change known b b'
  | places (x y : Int16) : Change known b { b with x, y }
  | adds {name : String} (data : ByteArray) (hknown : known name) (hroom : b.entries.length < maxBag)
    (hnew : b.find? name = none) : Change known b { b with entries := b.entries ++ [⟨name, data⟩] }
  | takes {name : String} (data : ByteArray) (hknown : known name) (hroom : b.entries.length < maxBag)
    (hnew : b.find? name = none) :
    Change known b { b with
      entries := b.entries ++ [⟨name, data⟩]
      selected := if b.selected = -1 then 0 else b.selected }
  | drops {name : String} {i : Nat} (h : b.find? name = some i) : Change known b (Operator.dropEntry b i)
  | selectsFirst : Change known b (Game.selectFirst b)

/-- Entries of different names, an action that there is, and an entry that there is. Without entries the first one can
be selected as well as none. -/
structure Sound (b : Bag) : Prop where
  few : b.entries.length ≤ maxBag
  distinct : b.entries.Pairwise fun e f => Text.sameName e.name f.name = false
  action : 0 ≤ b.action.toInt ∧ b.action.toInt ≤ 3
  selected : -1 ≤ b.selected.toInt ∧ b.selected.toInt < max 1 b.entries.length

variable {known : String → Prop} {b b' : Bag}

/-! ### Small numbers -/

theorem toInt_pred {v : Int16} (h : 0 ≤ v.toInt) : (v - 1).toInt = v.toInt - 1 := by
  have hlt := v.toInt_lt
  rw [Int16.toInt_sub]
  exact Int.bmod_eq_of_le (by change -32768 ≤ v.toInt - 1; omega) (by change v.toInt - 1 < 32768; omega)

theorem toInt_succ {v : Int16} (h : -1 ≤ v.toInt ∧ v.toInt < maxBag) : (v + 1).toInt = v.toInt + 1 := by
  have hmax : v.toInt < 20 := h.2
  rw [Int16.toInt_add]
  exact Int.bmod_eq_of_le (by change -32768 ≤ v.toInt + 1; omega) (by change v.toInt + 1 < 32768; omega)

/-- The first entry can be selected however many there are. -/
theorem first_selected (n : Nat) : -1 ≤ (0 : Int16).toInt ∧ (0 : Int16).toInt < max 1 n := by
  rw [show (0 : Int16).toInt = 0 from rfl]
  omega

/-- Wherever it lies on the screen, a bag without entries. -/
theorem sound_empty (x y : Int16) : Sound { x, y } :=
  ⟨Nat.zero_le _, .nil, (by decide : 0 ≤ (0 : Int16).toInt ∧ (0 : Int16).toInt ≤ 3),
    (by decide : -1 ≤ (-1 : Int16).toInt ∧ (-1 : Int16).toInt < 1)⟩

theorem toInt_ofNat {n : Nat} (h : n ≤ maxBag) : (Int16.ofNat n).toInt = n :=
  Int16.toInt_ofNat_of_lt (Nat.lt_of_le_of_lt h (by decide))

/-! ### Choosing -/

/-- What holds of the bag and is kept by choosing an action and an entry that is shown holds once it has been clicked. -/
theorem click_rec {P : Bag → Prop} (x y : Int) (h : P b)
    (haction : ∀ (c : Bag) (n : Nat), n < 3 → P c → P { c with action := Int16.ofNat n })
    (hentry : ∀ (c : Bag) (n : Nat), n < min c.entries.length Interface.shownEntries → P c →
      P { c with selected := Int16.ofNat n, action := useEntry }) : P (b.click x y) := by
  have first : P ((List.range 3).foldl
      (fun b (n : Nat) => if isIn x y (n * 45 + 118) 42 15 40 then { b with action := Int16.ofNat n } else b) b) := by
    refine List.foldlRecOn _ _ h fun c hc n hn => ?_
    split
    · exact haction c n (List.mem_range.mp hn) hc
    · exact hc
  unfold click
  dsimp only
  generalize (List.range 3).foldl _ b = c at first ⊢
  refine (List.foldlRecOn (motive := fun d : Bag => P d ∧ d.entries = c.entries) _ _ ⟨first, rfl⟩ fun d hd n hn => ?_).1
  split
  · exact ⟨hentry d n (hd.2 ▸ List.mem_range.mp hn) hd.1, hd.2⟩
  · exact hd

theorem Selecting.kept (h : Selecting b b') : b'.entries = b.entries ∧ b'.x = b.x ∧ b'.y = b.y := by
  cases h with
  | left =>
    unfold moveLeft
    split
    · exact ⟨rfl, rfl, rfl⟩
    · split <;> exact ⟨rfl, rfl, rfl⟩
  | right =>
    unfold moveRight
    split
    · split <;> exact ⟨rfl, rfl, rfl⟩
    · exact ⟨rfl, rfl, rfl⟩
  | click x y =>
    exact click_rec (P := fun c => c.entries = b.entries ∧ c.x = b.x ∧ c.y = b.y) x y ⟨rfl, rfl, rfl⟩ (fun _ _ _ h => h)
      fun _ _ _ h => h

/-! ### What each change keeps -/

theorem Sound.moveLeft (hb : b.Sound) : b.moveLeft.Sound := by
  obtain ⟨hfew, hdistinct, haction, hselected⟩ := hb
  unfold Bag.moveLeft
  split
  · exact ⟨hfew, hdistinct, haction, hselected⟩
  · rename_i h0
    have h0 : b.action.toInt ≠ 0 := fun h => h0 (Int16.toInt_inj.mp h)
    split
    · have hless : (b.action - 1).toInt = b.action.toInt - 1 := toInt_pred (by omega)
      exact ⟨hfew, hdistinct, by simp only [hless]; omega, hselected⟩
    · rename_i h
      have hpos : 0 < b.selected.toInt := by
        have hnot : ¬b.selected ≤ 0 := fun hle => h (Or.inr hle)
        rw [Int16.le_iff_toInt_le] at hnot
        exact Int.not_le.mp hnot
      have hless : (b.selected - 1).toInt = b.selected.toInt - 1 := toInt_pred (Int.le_of_lt hpos)
      exact ⟨hfew, hdistinct, haction, by simp only [hless]; omega⟩

theorem Sound.moveRight (hb : b.Sound) : b.moveRight.Sound := by
  obtain ⟨hfew, hdistinct, haction, hselected⟩ := hb
  unfold Bag.moveRight
  split
  · split
    · rename_i h
      have hcount : (Int16.ofNat b.entries.length - 1).toInt = b.entries.length - 1 := by
        rw [toInt_pred (by rw [toInt_ofNat hfew]; omega), toInt_ofNat hfew]
      have hlast : b.selected.toInt < b.entries.length - 1 := hcount ▸ Int16.lt_iff_toInt_lt.mp h.1
      have hnext : (b.selected + 1).toInt = b.selected.toInt + 1 := toInt_succ ⟨hselected.1, by omega⟩
      exact ⟨hfew, hdistinct, haction, by simp only [hnext]; omega⟩
    · exact ⟨hfew, hdistinct, haction, hselected⟩
  · rename_i h
    have huse : b.action.toInt ≠ 3 := fun h3 => h (Int16.toInt_inj.mp h3)
    have hmore : (b.action + 1).toInt = b.action.toInt + 1 := toInt_succ ⟨by omega, by have : maxBag = 20 := rfl; omega⟩
    exact ⟨hfew, hdistinct, by simp only [hmore]; omega, hselected⟩

theorem Sound.click (hb : b.Sound) (x y : Int) : (b.click x y).Sound := by
  refine click_rec (P := Sound) x y hb (fun c n hn hc => ?_) fun c n hn hc => ?_
  · have hnumber : (Int16.ofNat n).toInt = n := toInt_ofNat (Nat.le_trans (Nat.le_of_lt hn) (by decide))
    exact ⟨hc.few, hc.distinct, by simp only [hnumber]; omega, hc.selected⟩
  · have hnumber : (Int16.ofNat n).toInt = n := toInt_ofNat (by have := hc.few; omega)
    exact ⟨hc.few, hc.distinct, (by decide : 0 ≤ useEntry.toInt ∧ useEntry.toInt ≤ 3), by simp only [hnumber]; omega⟩

theorem Sound.selecting (hb : b.Sound) (h : Selecting b b') : b'.Sound := by
  cases h with
  | left => exact hb.moveLeft
  | right => exact hb.moveRight
  | click x y => exact hb.click x y

/-- A name that is not found is not the name of any entry. -/
theorem find?_eq_none {name : String} : b.find? name = none ↔ ∀ e ∈ b.entries, Text.sameName e.name name = false := by
  simp [find?]

/-- The entries with a new one behind them. -/
theorem Sound.distinct_append (hb : b.Sound) {name : String} (data : ByteArray) (hnew : b.find? name = none) :
    (b.entries ++ [(⟨name, data⟩ : BagEntry)]).Pairwise fun e f => Text.sameName e.name f.name = false := by
  rw [List.pairwise_append]
  refine ⟨hb.distinct, List.pairwise_singleton _ _, fun e he f hf => ?_⟩
  rw [List.mem_singleton.mp hf]
  exact find?_eq_none.mp hnew e he

theorem Sound.adds (hb : b.Sound) {name : String} (data : ByteArray) (hroom : b.entries.length < maxBag)
    (hnew : b.find? name = none) : ({ b with entries := b.entries ++ [⟨name, data⟩] } : Bag).Sound where
  few := by
    rw [List.length_append]
    exact hroom
  distinct := hb.distinct_append data hnew
  action := hb.action
  selected := by
    have hselected := hb.selected
    simp only [List.length_append, List.length_singleton]
    omega

theorem Sound.drops (hb : b.Sound) {i : Nat} (hi : i < b.entries.length) : (Operator.dropEntry b i).Sound := by
  obtain ⟨hfew, hdistinct, haction, hselected⟩ := hb
  have hnumber : (Int16.ofNat i).toInt = i := toInt_ofNat (by omega)
  have hlength : (b.entries.eraseIdx i).length = b.entries.length - 1 := List.length_eraseIdx_of_lt hi
  refine ⟨?_, hdistinct.sublist (List.eraseIdx_sublist _ _), haction, ?_⟩
  · change (b.entries.eraseIdx i).length ≤ maxBag
    omega
  · simp only [Operator.dropEntry, hlength]
    split
    · exact first_selected _
    · rename_i hother
      have hother : b.selected.toInt ≠ i := fun h => hother (Int16.toInt_inj.mp (h.trans hnumber.symm))
      split
      · rename_i hbehind
        have hbehind : (i : Int) < b.selected.toInt := hnumber ▸ Int16.lt_iff_toInt_lt.mp hbehind
        rw [toInt_pred (by omega)]
        omega
      · rename_i hbefore
        have hbefore : b.selected.toInt ≤ i := by
          rw [Int16.lt_iff_toInt_lt, hnumber] at hbefore
          omega
        omega

/-- However the bag is changed, it stays sound. -/
theorem Change.sound (h : Change known b b') (hb : b.Sound) : b'.Sound := by
  cases h with
  | selects h => exact hb.selecting h
  | places x y => exact ⟨hb.few, hb.distinct, hb.action, hb.selected⟩
  | adds data _ hroom hnew => exact hb.adds data hroom hnew
  | takes data _ hroom hnew =>
    have hadded := hb.adds data hroom hnew
    refine ⟨hadded.few, hadded.distinct, hadded.action, ?_⟩
    dsimp only
    split
    · exact first_selected _
    · exact hadded.selected
  | drops h => exact hb.drops (List.findIdx?_eq_some_iff_findIdx_eq.mp h).1
  | selectsFirst =>
    unfold Game.selectFirst
    split
    · exact ⟨hb.few, hb.distinct, hb.action, first_selected _⟩
    · exact hb

/-- However the bag is changed, its entries were there before or have a name that is known. -/
theorem Change.named (h : Change known b b') {e : BagEntry} (he : e ∈ b'.entries) : e ∈ b.entries ∨ known e.name := by
  cases h with
  | selects h => exact Or.inl (h.kept.1 ▸ he)
  | places x y => exact Or.inl he
  | adds data hknown _ _ | takes data hknown _ _ =>
    obtain he | he := List.mem_append.mp he
    · exact Or.inl he
    · exact Or.inr (List.mem_singleton.mp he ▸ hknown)
  | drops h => exact Or.inl (List.mem_of_mem_eraseIdx he)
  | selectsFirst =>
    unfold Game.selectFirst at he
    split at he
    · exact Or.inl he
    · exact Or.inl he

/-- However the bag is changed, it does not overflow. -/
theorem Change.few (h : Change known b b') (hb : b.entries.length ≤ maxBag) :
    b'.entries.length ≤ maxBag := by
  cases h with
  | selects h => exact h.kept.1 ▸ hb
  | places x y => exact hb
  | adds _ _ hroom _ | takes _ _ hroom _ =>
    rw [List.length_append]
    exact hroom
  | drops h => exact Nat.le_trans (List.length_eraseIdx_le _ _) hb
  | selectsFirst =>
    unfold Game.selectFirst
    split <;> exact hb

end Adventure.Bag
