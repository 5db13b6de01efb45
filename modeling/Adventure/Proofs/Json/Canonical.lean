import Adventure.Json.Canonical
import Adventure.Proofs.Json.Reading
import Mathlib.Data.List.Nodup
import Mathlib.Data.List.Perm.Subperm
import Mathlib.Data.String.Basic

/-! The canonical text is a normal form. Two values have the same one just when they differ in nothing but the order of the
members of their objects: sorting forgets this order and no more, and the compact text of what is sorted reads back. -/

namespace Adventure.Json

/-- No number of the value is a decimal one, and no object has two members of one name. -/
inductive Plain : Json → Prop
  | null : Plain .null
  | bool (b : Bool) : Plain (.bool b)
  | int (n : Int) : Plain (.int n)
  | str (s : String) : Plain (.str s)
  | arr {items : List Json} (h : ∀ v ∈ items, Plain v) : Plain (.arr items)
  | obj {members : List (String × Json)} (hnames : (members.map (·.1)).Nodup) (h : ∀ m ∈ members, Plain m.2) :
    Plain (.obj members)

/-- The values are the same, up to the order of the members of objects at any depth. -/
inductive Same : Json → Json → Prop
  | null : Same .null .null
  | bool (b : Bool) : Same (.bool b) (.bool b)
  | int (n : Int) : Same (.int n) (.int n)
  | decimal (t : String) : Same (.decimal t) (.decimal t)
  | str (s : String) : Same (.str s) (.str s)
  | arr {items items' : List Json} (hlength : items.length = items'.length)
    (h : ∀ (i : Nat) v w, items[i]? = some v → items'[i]? = some w → Same v w) : Same (.arr items) (.arr items')
  | obj {members members' : List (String × Json)} (hnames : (members.map (·.1)).Perm (members'.map (·.1)))
    (h : ∀ k v w, (k, v) ∈ members → (k, w) ∈ members' → Same v w) : Same (.obj members) (.obj members')

/-! ### Sorting -/

theorem sortedItems_eq (items : List Json) : sortedItems items = items.map sorted := by
  induction items with
  | nil => rfl
  | cons v items ih => rw [sortedItems, ih, List.map_cons]

/-- A member with its value sorted. -/
def sortedMember (m : String × Json) : String × Json := (m.1, sorted m.2)

theorem insertMember_perm (m : String × Json) (l : List (String × Json)) : (insertMember m l).Perm (m :: l) := by
  induction l with
  | nil => exact List.Perm.refl _
  | cons n l ih =>
    rw [insertMember]
    split
    · exact List.Perm.refl _
    · exact (ih.cons n).trans (List.Perm.swap m n l)

theorem sortedMembers_perm (members : List (String × Json)) : (sortedMembers members).Perm (members.map sortedMember) := by
  induction members with
  | nil => exact List.Perm.refl _
  | cons m members ih => exact (insertMember_perm _ _).trans (ih.cons _)

theorem insertMember_sorted (m : String × Json) {l : List (String × Json)} (h : l.Pairwise fun a b => a.1 ≤ b.1) :
    (insertMember m l).Pairwise fun a b => a.1 ≤ b.1 := by
  induction l with
  | nil => exact List.pairwise_singleton _ _
  | cons n l ih =>
    obtain ⟨hhead, hrest⟩ := List.pairwise_cons.mp h
    rw [insertMember]
    split
    · rename_i hlt
      refine List.pairwise_cons.mpr ⟨fun b hb => ?_, h⟩
      rcases List.mem_cons.mp hb with rfl | hb
      · exact hlt.le
      · exact hlt.le.trans (hhead b hb)
    · rename_i hle
      refine List.pairwise_cons.mpr ⟨fun b hb => ?_, ih hrest⟩
      rcases List.mem_cons.mp ((insertMember_perm m l).mem_iff.mp hb) with rfl | hb
      · exact not_lt.mp hle
      · exact hhead b hb

theorem sortedMembers_sorted (members : List (String × Json)) : (sortedMembers members).Pairwise fun a b => a.1 ≤ b.1 := by
  induction members with
  | nil => exact List.Pairwise.nil
  | cons m members ih => exact insertMember_sorted _ ih

theorem sortedMembers_names (members : List (String × Json)) :
    ((sortedMembers members).map (·.1)).Perm (members.map (·.1)) := by
  have hperm := (sortedMembers_perm members).map (·.1)
  rwa [List.map_map] at hperm

theorem mem_sortedMembers {members : List (String × Json)} {x : String × Json} :
    x ∈ sortedMembers members ↔ ∃ m ∈ members, sortedMember m = x := by
  rw [(sortedMembers_perm members).mem_iff, List.mem_map]

/-- Members are told apart by their names. -/
theorem eq_of_name {l : List (String × Json)} (h : (l.map (·.1)).Nodup) {a b : String × Json} (ha : a ∈ l) (hb : b ∈ l)
    (hab : a.1 = b.1) : a = b := List.inj_on_of_nodup_map h ha hb hab

/-- The order of members is forgotten. -/
theorem sortedMembers_congr {members members' : List (String × Json)} (hnames : (members.map (·.1)).Nodup)
    (hperm : (members.map sortedMember).Perm (members'.map sortedMember)) :
    sortedMembers members = sortedMembers members' := by
  have hsorted := (sortedMembers_perm members).trans (hperm.trans (sortedMembers_perm members').symm)
  refine hsorted.eq_of_pairwise (fun a b ha hb hab hba => ?_) (sortedMembers_sorted _) (sortedMembers_sorted _)
  exact eq_of_name ((sortedMembers_names members).nodup_iff.mpr hnames) ha (hsorted.mem_iff.mpr hb) (le_antisymm hab hba)

variable {v w : Json}

theorem Plain.sorted_exact (h : v.Plain) : v.sorted.Exact := by
  induction h with
  | null => exact .null
  | bool b => exact .bool b
  | int n => exact .int n
  | str s => exact .str s
  | arr _ ih =>
    rw [sorted, sortedItems_eq]
    refine .arr fun u hu => ?_
    obtain ⟨v, hv, rfl⟩ := List.mem_map.mp hu
    exact ih v hv
  | obj _ _ ih =>
    refine .obj fun x hx => ?_
    obtain ⟨m, hm, rfl⟩ := mem_sortedMembers.mp hx
    exact ih m hm

/-- Values that are the same are sorted alike. -/
theorem Plain.sorted_eq (hv : v.Plain) (hw : w.Plain) (h : Same v w) : v.sorted = w.sorted := by
  induction hv generalizing w with
  | null => cases h; rfl
  | bool b => cases h; rfl
  | int n => cases h; rfl
  | str s => cases h; rfl
  | @arr items _ ih =>
    cases h with
    | @arr _ items' hlength hsame =>
    cases hw with
    | arr hitems' =>
    rw [sorted, sorted, sortedItems_eq, sortedItems_eq]
    congr 1
    refine List.ext_getElem? fun i => ?_
    rw [List.getElem?_map, List.getElem?_map]
    cases hi : items[i]? with
    | none =>
      have hi' : items'[i]? = none := List.getElem?_eq_none (hlength ▸ List.getElem?_eq_none_iff.mp hi)
      rw [hi']
    | some u =>
      have hlt : i < items'.length := hlength ▸ (List.getElem?_eq_some_iff.mp hi).1
      have hi' : items'[i]? = some items'[i] := List.getElem?_eq_getElem hlt
      rw [hi', Option.map_some, Option.map_some,
        ih u (List.mem_of_getElem? hi) (hitems' _ (List.getElem_mem hlt)) (hsame i u _ hi hi')]
  | @obj members hnames _ ih =>
    cases h with
    | @obj _ members' hperm hsame =>
    cases hw with
    | obj hnames' hplain' =>
    rw [sorted, sorted]
    congr 1
    have hnodup : (members.map sortedMember).Nodup :=
      List.Nodup.of_map (·.1) (by rwa [List.map_map])
    have hsubset : members.map sortedMember ⊆ members'.map sortedMember := by
      intro x hx
      obtain ⟨⟨k, u⟩, hm, rfl⟩ := List.mem_map.mp hx
      obtain ⟨⟨_, u'⟩, hm', rfl⟩ := List.mem_map.mp (hperm.mem_iff.mp (List.mem_map_of_mem hm))
      have heq : u.sorted = u'.sorted := ih _ hm (hplain' _ hm') (hsame _ u u' hm hm')
      exact List.mem_map.mpr ⟨_, hm', by rw [sortedMember, sortedMember, heq]⟩
    have hlength : (members'.map sortedMember).length ≤ (members.map sortedMember).length := by
      simpa using hperm.length_eq.ge
    exact sortedMembers_congr hnames ((List.subperm_of_subset hnodup hsubset).perm_of_length_le hlength)

/-- Values that are sorted alike are the same. -/
theorem Plain.same (hv : v.Plain) (hw : w.Plain) (h : v.sorted = w.sorted) : Same v w := by
  induction hv generalizing w with
  | null => cases hw <;> first | exact .null | cases h
  | bool b => cases hw <;> cases h; exact .bool _
  | int n => cases hw <;> cases h; exact .int _
  | str s => cases hw <;> cases h; exact .str _
  | @arr items _ ih =>
    cases hw with
    | @arr items' hplain' =>
      rw [sorted, sorted, sortedItems_eq, sortedItems_eq] at h
      have hmap : items.map sorted = items'.map sorted := Json.arr.inj h
      refine .arr (by simpa using congrArg List.length hmap) fun i u u' hu hu' => ?_
      have hi : (items.map sorted)[i]? = (items'.map sorted)[i]? := by rw [hmap]
      rw [List.getElem?_map, List.getElem?_map, hu, hu'] at hi
      exact ih u (List.mem_of_getElem? hu) (hplain' u' (List.mem_of_getElem? hu')) (Option.some.inj hi)
    | _ => cases h
  | @obj members hnames _ ih =>
    cases hw with
    | @obj members' hnames' hplain' =>
      rw [sorted, sorted] at h
      have hmembers : sortedMembers members = sortedMembers members' := Json.obj.inj h
      refine .obj ((sortedMembers_names members).symm.trans (hmembers ▸ sortedMembers_names members'))
        fun k u u' hu hu' => ?_
      have hmem : sortedMember (k, u) ∈ sortedMembers members := mem_sortedMembers.mpr ⟨_, hu, rfl⟩
      have hmem' : sortedMember (k, u') ∈ sortedMembers members := hmembers ▸ mem_sortedMembers.mpr ⟨_, hu', rfl⟩
      have hnodup := (sortedMembers_names members).nodup_iff.mpr hnames
      exact ih _ hu (hplain' _ hu') (congrArg Prod.snd (eq_of_name hnodup hmem hmem' rfl))
    | _ => cases h

/-- The canonical text is a normal form of values without decimal numbers in which no object has two members of one name.
Reading it gives the value with its members sorted; two values have the same text, and the digest is made of the same bytes,
just when they are the same up to the order of the members of objects at any depth. -/
theorem canonical_eq_iff (hv : v.Plain) (hw : w.Plain) :
    (v.canonical = w.canonical ↔ Same v w) ∧ parse? .whole v.canonical = some v.sorted ∧
      v.digest = Sha256.hexDigest v.canonical.toUTF8 ∧ (v.canonical.toUTF8 = w.canonical.toUTF8 ↔ Same v w) := by
  have hiff : v.canonical = w.canonical ↔ Same v w := by
    constructor
    · exact fun h => hv.same hw (compact_inj hv.sorted_exact hw.sorted_exact h)
    · exact fun h => congrArg compact (hv.sorted_eq hw h)
  exact ⟨hiff, parse?_compact hv.sorted_exact, rfl, String.toByteArray_inj.trans hiff⟩

/-- An object in an object, with the members of both out of order. -/
def outOfOrder : Json := .obj [("z", .int 1), ("a", .obj [("y", .int 2), ("b", .int 3)])]

/-- The same members in order. -/
def inOrder : Json := .obj [("a", .obj [("b", .int 3), ("y", .int 2)]), ("z", .int 1)]

theorem plain_two {k l : String} {v w : Json} (h : k ≠ l) (hv : v.Plain) (hw : w.Plain) : Plain (.obj [(k, v), (l, w)]) := by
  refine .obj (by simpa using h) fun m hm => ?_
  simp only [List.mem_cons, List.not_mem_nil, or_false] at hm
  rcases hm with rfl | rfl
  · exact hv
  · exact hw

/-- Sorting puts them in order, so that they share the text. -/
theorem canonical_eq_iff_outOfOrder : outOfOrder.Plain ∧ inOrder.Plain ∧ Same outOfOrder inOrder ∧
    parse? .whole outOfOrder.canonical = some inOrder ∧ outOfOrder.digest = inOrder.digest := by
  have hout : outOfOrder.Plain := plain_two (by decide) (.int 1) (plain_two (by decide) (.int 2) (.int 3))
  have hin : inOrder.Plain := plain_two (by decide) (plain_two (by decide) (.int 3) (.int 2)) (.int 1)
  have hsorted : outOfOrder.sorted = inOrder := by rfl
  have htext : outOfOrder.canonical = inOrder.canonical := congrArg compact (hsorted.trans (by rfl))
  obtain ⟨hiff, hread, -⟩ := canonical_eq_iff hout hin
  exact ⟨hout, hin, hiff.mp htext, hread.trans (congrArg some hsorted), by rw [digest, htext, digest]⟩

end Adventure.Json
