import Adventure.Proofs.Bytes.Yields
import Adventure.Save.Reader

/-! What can be told of any saved game that is read, whoever wrote its file: its tables are not longer than those of
a game, and no name in it has a zero. -/

namespace Adventure

namespace SaveState

open Yields

/-- The tables of a saved game are not longer than those of a game, and its names can be kept in fields. -/
structure Accepted (s : SaveState) : Prop where
  objects : s.objects.length ≤ maxObjects
  objectNames : ∀ o ∈ s.objects, Text.NoZero o.name
  bag : s.bag.length ≤ maxBag
  bagNames : ∀ e ∈ s.bag, Text.NoZero e.name

theorem yields_count (what : String) (max : Nat) : Yields (readCount what max) (· ≤ max) := by
  refine .skip fun n c => .ite (fun _ => trivial) fun h => ?_
  exact Nat.not_lt.mp h

theorem yields_name : Yields readName Text.NoZero := .skip fun _ => .value (Text.noZero_ofField _)

theorem yields_object : Yields readObject fun o => Text.NoZero o.name := by
  iterate 23 refine .skip fun _ => ?_
  exact yields_name.bind fun _ h => .skip fun _ => .skip fun _ => .value h

theorem yields_bagName : Yields readBagName fun e => Text.NoZero e.2 :=
  .skip fun _ => yields_name.bind fun _ h => .value h

/-- Each sprite is given the name that stands with its place. -/
theorem names_splitBag {data : ByteArray} {i : Nat} {names : List (Nat × String)} {l : List BagEntry}
    (h : splitBag data i names = .ok l) : l.map (·.name) = names.map (·.2) := by
  induction names generalizing i l with
  | nil => cases h; rfl
  | cons e names ih =>
    rw [splitBag] at h
    dsimp only at h
    split at h
    · cases h
    · obtain ⟨r, hr, h⟩ := except_bind_eq_ok.mp h
      cases h
      rw [List.map_cons, List.map_cons, ih hr]

theorem yields_bag : Yields readBag fun l => l.length ≤ maxBag ∧ ∀ e ∈ l, Text.NoZero e.name := by
  refine .skip fun _ => .skip fun data => (yields_count _ _).bind fun n hn => (yields_bagName.times n).bind fun names h => ?_
  split
  · rename_i l hl
    have hnames := names_splitBag hl
    refine .value ⟨?_, fun e he => ?_⟩
    · rw [← List.length_map (f := (·.name)), hnames, List.length_map, h.1]
      exact hn
    · obtain ⟨p, hp, hname⟩ := List.mem_map.mp (hnames ▸ List.mem_map_of_mem he)
      exact hname ▸ h.2 p hp
  · exact .fault _

theorem yields_from (withMusic : Bool) : Yields (readFrom withMusic) Accepted := by
  refine .skip fun _ => (yields_count _ _).bind fun n hn => (yields_object.times n).bind fun objects hobjects => ?_
  iterate 8 refine .skip fun _ => ?_
  refine yields_bag.bind fun bag hbag => .skip fun _ => .skip fun _ => .value ?_
  exact ⟨hobjects.1 ▸ hn, hobjects.2, hbag.1, hbag.2⟩

/-- The name of the scene is cut at its first zero. -/
theorem noZero_readHeader {data : ByteArray} {h : SaveHeader} (hread : readHeader data = .ok h) : Text.NoZero h.sceneName := by
  have hyields : Yields readHeaderFrom fun h => Text.NoZero h.sceneName := .skip fun _ => string16.bind fun _ h => .value h
  exact hyields.run hread

/-- Whatever file a saved game is read from, it fits the tables of a game. -/
theorem read_accepted {data : ByteArray} {withMusic : Bool} {s : SaveState} (h : read data withMusic = .ok s) : s.Accepted :=
  (yields_from withMusic).run h

end SaveState

end Adventure
