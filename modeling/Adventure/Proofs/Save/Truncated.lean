import Adventure.Proofs.Bytes.Forward
import Adventure.Proofs.Save.RoundTrip

/-! A saved game whose file breaks off. The file is read from its start to its end, and every byte of it is needed:
no part of it is taken for a game, but for the part without the music, which the games that come with the demo
are. What stands behind a game does not matter. -/

namespace Adventure.SaveState

open Cursor (Gives gives_u32)

/-! ### The reader only goes forward -/

theorem forward_count (what : String) (max : Nat) : Forward (readCount what max) :=
  Forward.u16.bind fun _ => .ite ((Forward.throw _).bind fun _ => .pure _) (.pure _)

theorem forward_counted {α : Type} {item : ReadM SaveError α} (what : String) (max : Nat) (h : Forward item) :
    Forward (readCount what max >>= Cursor.times item) :=
  (forward_count what max).bind h.times

theorem forward_name : Forward readName := (Forward.bytes nameSize).map _

theorem forward_object : Forward readObject := by
  unfold readObject
  iterate 23 refine Forward.i16.bind fun _ => ?_
  exact forward_name.bind fun _ => forward_name.bind fun _ => ((Forward.i16.times _).map _).map _

theorem forward_box : Forward readBox := by
  unfold readBox
  iterate 4 refine Forward.i16.bind fun _ => ?_
  refine Forward.u8.bind fun _ => ?_
  iterate 3 refine Forward.i16.bind fun _ => ?_
  exact .pure _

theorem forward_boxes : Forward readBoxes :=
  (forward_count _ _).bind fun _ => .ite ((Forward.throw _).bind fun _ => ((forward_box.times _).map _).times _)
    (((forward_box.times _).map _).times _)

theorem forward_status : Forward readStatus := by
  unfold readStatus
  iterate 6 refine Forward.i16.bind fun _ => ?_
  exact .pure _

theorem forward_bagName : Forward readBagName := Forward.u16.bind fun _ => forward_name.map _

theorem forward_bag : Forward readBag := by
  refine Forward.u16.bind fun size => (Forward.bytes _).bind fun data => (forward_count _ _).bind fun n =>
    (forward_bagName.times n).bind fun names => ?_
  -- the sprites are cut from what has been read
  cases splitBag data 0 names with
  | ok bag => exact .pure bag
  | error e => exact .throw e

theorem forward_music (withMusic : Bool) : Forward (readMusic withMusic) := by
  refine (Forward.u32.map _).bind fun _ => ?_
  cases withMusic with
  | true => exact Forward.u32.bind fun _ => Forward.string16.map _
  | false => exact .pure none

theorem forward_header : Forward readHeaderFrom :=
  (forward_counted _ _ Forward.i16).bind fun _ => Forward.string16.map _

theorem forward_from (withMusic : Bool) : Forward (readFrom withMusic) := by
  refine forward_header.bind fun _ => (forward_count _ _).bind fun n => (forward_object.times n).bind fun _ =>
    (forward_counted _ _ Forward.i16).bind fun _ => forward_boxes.bind fun _ =>
    (forward_counted _ _ Forward.i16).bind fun _ => (forward_count _ _).bind fun n =>
    (forward_status.times n).bind fun _ => ?_
  iterate 3 refine Forward.i16.bind fun _ => ?_
  exact forward_bag.bind fun _ => Forward.i16.bind fun _ => (forward_music withMusic).map _

/-! ### Broken off -/

/-- Missing music is written as if it were empty. -/
def filled (s : SaveState) : SaveState := { s with music := some (s.music.getD {}) }

theorem write_filled (s : SaveState) : s.filled.write = s.write := rfl

theorem gives_noMusic (track : UInt32) : Gives (readMusic false) none (Bytes.long track) :=
  ((gives_u32 track).map fun _ => ()).bind_nil (Gives.value none)

/-- The file up to the first word of the music is one without music. -/
theorem read_noMusic {s : SaveState} (h : s.filled.Storable) :
    read ((Bytes.ofList (fileBytes s)).extract 0 ((frontBytes s).length + 4)) false = .ok { s with music := none } := by
  obtain ⟨rest, hfile⟩ : ∃ rest, fileBytes s = (frontBytes s ++ Bytes.long (s.music.getD {}).track) ++ rest :=
    ⟨_, by rw [fileBytes_eq, musicBytes, ← List.append_assoc]⟩
  have hheld := Bytes.holds_list (Bytes.ofList (fileBytes s))
  rw [Bytes.list_ofList, hfile] at hheld
  rw [hfile]
  have hcut := hheld.left.extract
  rw [Nat.zero_add, List.length_append, Bytes.length_long] at hcut
  have hread := (gives_front h (gives_noMusic (s.music.getD {}).track)).run []
  rw [List.append_nil] at hread
  rwa [Bytes.list_eq_iff.mp hcut]

/-- Wherever the file of a game breaks off, reading it reports that it ends there. Behind the first word of the
music, the track, it can be read as a game without music. What is read is read whatever stands behind it. -/
theorem read_truncated :
    (∀ s : SaveState, s.filled.Storable → ∃ d, s.write = .ok d ∧
      Bytes.list d = frontBytes s ++ musicBytes (s.music.getD {}) ∧
      (∀ n < d.size, ∃ e : ReadError, read (d.extract 0 n) true = .error (.read e) ∧
        e.offset + e.available = n ∧ e.available < e.wanted) ∧
      read (d.extract 0 ((frontBytes s).length + 4)) false = .ok { s with music := none }) ∧
    ∀ d more withMusic s, read d withMusic = .ok s → read (d ++ more) withMusic = .ok s := by
  constructor
  · intro s h
    have hwrite : s.write = .ok (Bytes.ofList (fileBytes s)) := (write_filled s).symm.trans (write_eq h)
    refine ⟨_, hwrite, (Bytes.list_ofList _).trans (fileBytes_eq s), fun n hn => ?_, read_noMusic h⟩
    have hgives : Gives (readFrom true) s.filled (Bytes.list (Bytes.ofList (fileBytes s))) := by
      rw [Bytes.list_ofList]
      exact gives_file h
    exact (forward_from true).run_cut hgives hn
  · intro d more withMusic s h
    exact (forward_from withMusic).run_append h more

/-- The first room without music. -/
def quietState : SaveState := { empty "C1_02.SCN" with music := none }

theorem read_truncated_quietState :
    quietState.filled.Storable ∧ ∃ d, quietState.write = .ok d ∧
      (∃ e : ReadError, read (d.extract 0 3) true = .error (.read e) ∧ e.offset + e.available = 3 ∧ e.available < e.wanted) ∧
      ∀ more, read (d.extract 0 ((frontBytes quietState).length + 4) ++ more) false = .ok quietState := by
  have hstorable : quietState.filled.Storable := {
    defaultVars := Nat.le_of_eq List.length_replicate
    sceneName := by decide
    objects := by decide
    objectNames := by decide
    boxCounts := by decide
    boxes := by decide
    vars := Nat.le_of_eq List.length_replicate
    statuses := Nat.le_of_eq List.length_replicate
    bag := by decide
    bagSize := by decide
    bagNames := by decide
    music := ⟨_, rfl, by decide, by decide⟩ }
  obtain ⟨d, hwrite, hlist, hcut, hread⟩ := read_truncated.1 quietState hstorable
  have hsize : 3 < d.size := by
    rw [← Bytes.length_list, hlist, musicBytes, List.length_append, List.length_append, Bytes.length_long]
    omega
  exact ⟨hstorable, d, hwrite, hcut 3 hsize, fun more => read_truncated.2 _ more false _ hread⟩

end Adventure.SaveState
