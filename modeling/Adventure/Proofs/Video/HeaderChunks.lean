import Adventure.Proofs.Bytes.Local
import Adventure.Proofs.Video.Demuxing

/-! Chunks of no known kind between the headers of a cutscene. A header is read from its own bytes, wherever they stand, so
that a file with other chunks put between its headers is opened as the one without them, if each of these chunks is skipped
to its end. A chunk of an odd size is not, since the byte that makes its size even is not skipped. Behind the headers
the same frames are read, only further behind in the file. -/

namespace Adventure

open Bytes (Holds)
open Loop

namespace Bytes

/-- The bytes `l` put in at a place of a buffer. -/
def insertAt (b : ByteArray) (i : Nat) (l : List UInt8) : ByteArray := b.extract 0 i ++ (ofList l ++ b.extract i b.size)

variable {b : ByteArray} {i j : Nat} {k l : List UInt8}

theorem list_insertAt (b : ByteArray) (i : Nat) (l : List UInt8) :
    list (insertAt b i l) = (list b).take i ++ (l ++ (list b).drop i) := by
  have hstart : list (b.extract 0 i) = (list b).take i := by simp [list, List.extract_eq_take_drop]
  have hend : list (b.extract i b.size) = (list b).drop i := by
    simp only [list, ByteArray.data_extract, Array.toList_extract, List.extract_eq_take_drop]
    exact List.take_of_length_le (Nat.le_of_eq (List.length_drop))
  rw [insertAt, list_append, list_append, list_ofList, hstart, hend]

theorem size_insertAt (hi : i ≤ b.size) (l : List UInt8) : (insertAt b i l).size = b.size + l.length := by
  rw [← length_list] at hi
  rw [← length_list, ← length_list, list_insertAt, List.length_append, List.length_append, List.length_take,
    List.length_drop]
  omega

theorem drop_insertAt (hi : i ≤ b.size) (hj : i ≤ j) (l : List UInt8) :
    (list (insertAt b i l)).drop (j + l.length) = (list b).drop j := by
  obtain ⟨n, rfl⟩ := Nat.exists_eq_add_of_le hj
  have htake : ((list b).take i).length = i := List.length_take_of_le hi
  rw [list_insertAt, Nat.add_assoc, ← List.drop_drop, List.drop_left' htake, Nat.add_comm, ← List.drop_drop,
    List.drop_left, List.drop_drop]

/-- What stands in front of the place stays. -/
theorem Holds.insert_before (h : Holds b j k) (hi : i ≤ b.size) (hj : j + k.length ≤ i) :
    Holds (insertAt b i l) j k := by
  have htake : ((list b).take i).length = i := List.length_take_of_le hi
  have hk : k <+: ((list b).drop j).take (i - j) := List.prefix_take_iff.mpr ⟨h, by omega⟩
  rw [Holds, list_insertAt, List.drop_append_of_le_length (by omega), List.drop_take]
  exact hk.trans (List.prefix_append _ _)

theorem holds_insertAt (hi : i ≤ b.size) (l : List UInt8) : Holds (insertAt b i l) i l := by
  have htake : ((list b).take i).length = i := List.length_take_of_le hi
  rw [Holds, list_insertAt, List.drop_left' htake]
  exact List.prefix_append _ _

/-- What stands behind the place moves by as many bytes as are put in. -/
theorem Holds.insert_behind (h : Holds b j k) (hi : i ≤ b.size) (hj : i ≤ j) :
    Holds (insertAt b i l) (j + l.length) k := by
  rwa [Holds, drop_insertAt hi hj]

end Bytes

/-! ### Reading further behind -/

/-- The same error of data that stand `n` bytes further behind. -/
def VideoError.later (n : Nat) : VideoError → VideoError
  | .read e => .read { e with offset := e.offset + n }
  | e => e

namespace Demuxer

/-- The same is left to read, `n` bytes further behind. -/
structure Behind (n : Nat) (d e : Demuxer) : Prop where
  pos : e.cursor.pos = d.cursor.pos + n
  rest : (Bytes.list e.cursor.data).drop e.cursor.pos = (Bytes.list d.cursor.data).drop d.cursor.pos
  header : e.header = d.header
  left : e.left = d.left

/-- The same answer, or the same error further behind, and again the same left to read. -/
inductive Follows {α : Type} (n : Nat) : EStateM.Result VideoError Demuxer α → EStateM.Result VideoError Demuxer α → Prop
  | value {d e : Demuxer} (a : α) : Behind n d e → Follows n (.ok a d) (.ok a e)
  | fault {d e : Demuxer} (x : VideoError) : Behind n d e → Follows n (.error x d) (.error (x.later n) e)

/-- A step does not look at the place where it reads. -/
def Movable {α : Type} (m : M α) : Prop := ∀ ⦃n : Nat⦄ ⦃d e : Demuxer⦄, Behind n d e → Follows n (m d) (m e)

theorem Behind.trans {m n : Nat} {d e f : Demuxer} (h : Behind m d e) (h' : Behind n e f) : Behind (m + n) d f where
  pos := by rw [h'.pos, h.pos, Nat.add_assoc]
  rest := h'.rest.trans h.rest
  header := h'.header.trans h.header
  left := h'.left.trans h.left

theorem Behind.remaining {n : Nat} {d e : Demuxer} (h : Behind n d e) : e.cursor.remaining = d.cursor.remaining := by
  have hlen := congrArg List.length h.rest
  rwa [List.length_drop, List.length_drop, Bytes.length_list, Bytes.length_list] at hlen

namespace Movable

variable {α β : Type} {m k : M α} {f : α → M β}

theorem value (a : α) : Movable (pure a : M α) := fun _ _ _ h => .value a h

theorem fault {x : VideoError} (hx : ∀ n, x.later n = x) : Movable (throw x : M α) := by
  intro n d e h
  have hfault := Follows.fault (α := α) x h
  rwa [hx n] at hfault

theorem bind (hm : Movable m) (hf : ∀ a, Movable (f a)) : Movable (m >>= f) := by
  intro n d e h
  have hfirst := hm h
  simp only [Bind.bind, EStateM.bind]
  generalize m d = r, m e = r' at hfirst
  cases hfirst with
  | value a h => exact hf a h
  | fault x h => exact .fault x h

theorem ite {p : Prop} [Decidable p] (hm : Movable m) (hk : Movable k) : Movable (if p then m else k) := by
  split
  · exact hm
  · exact hk

/-- What follows depends on what is left to read. -/
theorem look {f : Demuxer → M α} (hsame : ∀ {n d e}, Behind n d e → f e = f d) (hf : ∀ d, Movable (f d)) :
    Movable (get >>= f) := by
  intro n d e h
  change Follows n (f d d) (f e e)
  rw [hsame h]
  exact hf d h

theorem setLeft {g : Int → Int} : Movable (modify fun d => { d with left := g d.left } : M Unit) := fun _ _ _ h =>
  .value () ⟨h.pos, h.rest, h.header, congrArg g h.left⟩

theorem bytes (n : Nat) : Movable (onCursor (Cursor.bytes n)) := by
  intro i d e h
  have hextract : e.cursor.data.extract e.cursor.pos (e.cursor.pos + n) =
      d.cursor.data.extract d.cursor.pos (d.cursor.pos + n) := by
    refine Bytes.list_inj ?_
    simp only [Bytes.list, ByteArray.data_extract, Array.toList_extract, List.extract_eq_take_drop,
      Nat.add_sub_cancel_left]
    exact congrArg (List.take n) h.rest
  unfold onCursor Cursor.bytes
  rw [h.remaining, hextract]
  by_cases hroom : d.cursor.remaining < n
  · rw [if_pos hroom, if_pos hroom, h.pos]
    exact .fault (.read ⟨d.cursor.pos, n, d.cursor.remaining⟩) h
  · rw [if_neg hroom, if_neg hroom]
    refine .value _ ⟨?_, ?_, h.header, h.left⟩
    · change e.cursor.pos + n = d.cursor.pos + n + i
      rw [h.pos, Nat.add_right_comm]
    · change (Bytes.list e.cursor.data).drop (e.cursor.pos + n) = (Bytes.list d.cursor.data).drop (d.cursor.pos + n)
      rw [← List.drop_drop, h.rest, List.drop_drop]

theorem u32 : Movable (onCursor Cursor.u32) := by
  have hmap {g : ByteArray → UInt32} : onCursor (Cursor.bytes 4 >>= fun b => pure (g b)) =
      onCursor (Cursor.bytes 4) >>= fun b => pure (g b) := by
    funext d
    simp only [onCursor, Bind.bind, EStateM.bind]
    cases (Cursor.bytes 4 : ReadM VideoError ByteArray) d.cursor <;> rfl
  unfold Cursor.u32
  rw [hmap]
  exact (bytes 4).bind fun _ => value _

theorem openRecord : Movable openRecord := (bytes 12).bind fun _ => setLeft (g := fun _ => _)

theorem readPacket : Movable readPacket := by
  refine (bytes 4).bind fun tag => u32.bind fun size => look (fun h => by rw [h.remaining]) fun d => ?_
  refine .ite (.fault fun _ => rfl) ((setLeft (g := (· - _))).bind fun _ => (bytes _).bind fun data => ?_)
  cases kindOf tag with
  | none => exact value none
  | some kind => exact (setLeft (g := (max · 0))).bind fun _ => value _

theorem nextChunk : Movable nextChunk := by
  intro n d e h
  by_cases hend : d.cursor.remaining < 8
  · rw [nextChunk_end hend, nextChunk_end (h.remaining ▸ hend)]
    exact .value none h
  · have hroom : 8 ≤ d.cursor.remaining := Nat.le_of_not_lt hend
    have hroom' : 8 ≤ e.cursor.remaining := h.remaining ▸ hroom
    by_cases hleft : d.left ≤ 0
    · rw [nextChunk_open hroom hleft, nextChunk_open hroom' (h.left ▸ hleft)]
      exact openRecord.bind (fun _ => readPacket) h
    · rw [nextChunk_within hroom (Int.not_le.mp hleft), nextChunk_within hroom' (h.left ▸ Int.not_le.mp hleft)]
      exact readPacket h

theorem chunksFrom (fuel : Nat) (acc : List Chunk) : Movable (chunksFrom fuel acc) := by
  induction fuel generalizing acc with
  | zero => exact value _
  | succ fuel ih =>
    refine nextChunk.bind fun c => ?_
    cases c with
    | none => exact value _
    | some c => exact look (fun h => by rw [h.left]) fun _ => .ite (value _) (ih _)

theorem nextFrame : Movable nextFrame := look (fun h => by rw [h.remaining]) fun _ => chunksFrom _ _

end Movable

/-- What is answered when the next frames are asked for, one after the other; also an error is followed by the
next answer. -/
def answers : Nat → Demuxer → List (Except VideoError (List Chunk))
  | 0, _ => []
  | n + 1, d => match nextFrame d with
    | .ok chunks e => .ok chunks :: answers n e
    | .error x e => .error x :: answers n e

theorem answers_behind {n : Nat} {d e : Demuxer} (h : Behind n d e) (k : Nat) :
    answers k e = (answers k d).map (Except.mapError (VideoError.later n)) := by
  induction k generalizing d e with
  | zero => rfl
  | succ k ih =>
    have hframe := Movable.nextFrame h
    unfold answers
    generalize nextFrame d = r, nextFrame e = r' at hframe
    cases hframe with
    | value a h => exact congrArg (.ok a :: ·) (ih h)
    | fault x h => exact congrArg (.error (x.later n) :: ·) (ih h)

/-- Why a file is not opened, if it is not. -/
def refusal? (file : ByteArray) : Option VideoError :=
  match load file with
  | .error e => some e
  | .ok _ => none

theorem load_of_refusal {file : ByteArray} {e : VideoError} (h : refusal? file = some e) :
    load file = .error e := by
  unfold refusal? at h
  split at h
  · next hload =>
    cases h
    exact hload
  · cases h

end Demuxer

namespace Avi

/-! ### Headers are read from their own bytes -/

theorem isTag_iff {b : ByteArray} {tag : String} : isTag b tag = true ↔ b = tag.toUTF8 := by
  obtain ⟨a⟩ := b
  unfold isTag
  generalize tag.toUTF8 = c
  obtain ⟨c⟩ := c
  rw [ByteArray.mk.injEq]
  exact beq_iff_eq (a := a)

theorem local_readMain (h : AviHeader) : Cursor.Local (readMain h) := by
  refine (Cursor.Local.bytes 56).bind fun b => ?_
  exact .ite (.fault _) (.ite (.fault _) (.ite (.fault _) (.value _)))

theorem local_readStream (h : AviHeader) : Cursor.Local (readStream h) :=
  (Cursor.Local.bytes 56).bind fun _ => .ite (.value _) (.ite (.value _) (.fault _))

theorem local_readSoundFormat : Cursor.Local readSoundFormat :=
  (Cursor.Local.bytes 16).bind fun _ => .ite (.fault _) (.value _)

theorem local_readPictureFormat (h : AviHeader) : Cursor.Local (readPictureFormat h) :=
  (Cursor.Local.bytes 40).bind fun _ => .ite (.fault _) (.value _)

/-- A chunk of no known kind is skipped if there is as much as it says. -/
def skipChunk (h : AviHeader) (size : Nat) : ReadM VideoError (AviHeader ⊕ AviHeader) := do
  if (← get).remaining < size then throw .noMovie
  Cursor.skip size
  return .inl h

theorem gives_skipChunk (h : AviHeader) {n : Nat} {b : ByteArray} {l : List UInt8}
    (hb : Cursor.Gives (Cursor.bytes n : ReadM VideoError ByteArray) b l) : Cursor.Gives (skipChunk h n) (.inl h) l := by
  intro c hc
  have hread := hb c hc
  have hroom : ¬ c.remaining < n := fun hless => by
    rw [Cursor.bytes, if_pos hless] at hread
    cases hread
  refine (bind_of_ok (m := get) rfl).trans ?_
  rw [if_neg hroom]
  exact bind_of_ok (m := Cursor.skip n) (bind_of_ok hread)

theorem local_skipChunk (h : AviHeader) (n : Nat) : Cursor.Local (skipChunk h n) := by
  intro c d a hskip
  have hroom : ¬ c.remaining < n := fun hless => by
    have hthrow : skipChunk h n c = .error .noMovie c := by
      refine (bind_of_ok (m := get) rfl).trans ?_
      rw [if_pos hless]
      rfl
    rw [hthrow] at hskip
    cases hskip
  have hread : (Cursor.bytes n : ReadM VideoError ByteArray) c = .ok _ _ := if_neg hroom
  obtain ⟨l, hl, -, hgives⟩ := Cursor.Local.bytes n hread
  have hend := gives_skipChunk h hgives
  rw [hend c hl] at hskip
  cases hskip
  exact ⟨l, hl, rfl, hend⟩

theorem local_readHeaderChunk (h : AviHeader) : Cursor.Local (readHeaderChunk h) := by
  refine (Cursor.Local.bytes 4).bind fun tag => Cursor.Local.u32.bind fun size => ?_
  refine .ite ((Cursor.Local.bytes 4).map _) (.ite ((local_readMain h).map _) (.ite ((local_readStream h).map _) ?_))
  refine .ite (local_readSoundFormat.map _) (.ite ((local_readPictureFormat h).map _) ?_)
  exact local_skipChunk h size.toNat

/-- A header is never read from nothing. -/
theorem not_gives_nil (h : AviHeader) (r : AviHeader ⊕ AviHeader) : ¬ Cursor.Gives (readHeaderChunk h) r [] := by
  intro hgives
  have hread := hgives ⟨ByteArray.empty, 0⟩ List.nil_prefix
  cases hread

/-! ### Chunks put between headers -/

def knownTags : List String := ["LIST", "avih", "strh", "strf"]

/-- A chunk of no known kind. The byte that makes its size even is free. -/
structure Filler where
  tag : ByteArray
  size_tag : tag.size = 4
  unknown : ∀ name ∈ knownTags, isTag tag name = false
  payload : ByteArray
  small : payload.size < 0x100000000
  pad : UInt8 := 0

namespace Filler

variable (f : Filler)

/-- The chunk as far as it says. -/
def content : List UInt8 := Bytes.list f.tag ++ (Bytes.long f.payload.size.toUInt32 ++ Bytes.list f.payload)

/-- The chunk as it is written, with an even size. -/
def bytes : List UInt8 := f.content ++ if f.payload.size % 2 = 0 then [] else [f.pad]

theorem bytes_eq {f : Filler} (heven : f.payload.size % 2 = 0) : f.bytes = f.content := by
  rw [bytes, if_pos heven, List.append_nil]

/-- A chunk of no known kind changes nothing and is skipped as far as it says; what makes its size even is not. -/
theorem gives (h : AviHeader) : Cursor.Gives (readHeaderChunk h) (.inl h) f.content := by
  have hnat : f.payload.size.toUInt32.toNat = f.payload.size := UInt32.toNat_ofNat_of_lt' f.small
  have htag {name : String} (hname : name ∈ knownTags) : ¬ isTag f.tag name = true := by
    rw [f.unknown name hname]
    exact Bool.false_ne_true
  have hlist : "LIST" ∈ knownTags := by decide
  have havih : "avih" ∈ knownTags := by decide
  have hstrh : "strh" ∈ knownTags := by decide
  have hstrf : "strf" ∈ knownTags := by decide
  refine (Cursor.gives_bytes f.size_tag).bind ((Cursor.gives_u32 _).bind ?_)
  rw [if_neg (htag hlist), if_neg fun h => htag havih h.1, if_neg fun h => htag hstrh h.1,
    if_neg fun h => htag hstrf h.1, if_neg fun h => htag hstrf h.1]
  exact gives_skipChunk h (Cursor.gives_bytes hnat.symm)

end Filler

/-- Between the headers of a file: the first of them are read up to here. -/
def Between (data : ByteArray) (pos : Nat) : Prop := ∃ n h, Rounds readHeaderChunk n {} ⟨data, 12⟩ h ⟨data, pos⟩

/-- Files with chunks of no known kind and of even sizes put between the headers, one after the other. -/
inductive Widened (data : ByteArray) : ByteArray → Prop
  | same : Widened data data
  | insert {wide : ByteArray} {pos : Nat} (f : Filler) : Widened data wide → Between wide pos →
      f.payload.size % 2 = 0 → Widened data (Bytes.insertAt wide pos f.bytes)

variable {data wide : ByteArray} {d : Demuxer}

theorem load_ok (hload : Demuxer.load data = .ok d) : Holds data 8 (Text.bytes "AVI ") ∧ d.left = 0 ∧
    ∃ n, Outcome readHeaderChunk n {} ⟨data, 12⟩ (.ok d.header d.cursor) := by
  unfold Demuxer.load at hload
  split at hload
  · rename_i header cursor hread
    cases hload
    obtain ⟨_, _, hseek, hread⟩ := bind_eq_ok.mp hread
    cases hseek
    obtain ⟨tag, e, htag, hread⟩ := bind_eq_ok.mp hread
    obtain ⟨-, hmark, rfl⟩ := Cursor.bytes_ok htag
    split at hread
    · cases hread
    · rename_i hsame
      have heq : tag = "AVI ".toUTF8 := isTag_iff.mp (by simpa using hsame)
      rw [heq] at hmark
      exact ⟨hmark, rfl, Cursor.outcome_of_loopFrom hread⟩
  · cases hload

/-- A file that can be opened, taken apart between two headers. -/
theorem parts_of_load {pos : Nat} (hload : Demuxer.load data = .ok d) (hpos : Between data pos) :
    ∃ m n h t k k' l, Cursor.Steps readHeaderChunk m {} k h ∧ Cursor.Steps readHeaderChunk n h k' t ∧
      Cursor.Gives (readHeaderChunk t) (.inr d.header) l ∧ Holds data 12 k ∧ pos = 12 + k.length ∧
      Holds data pos (k' ++ l) ∧ d.cursor = ⟨data, pos + (k' ++ l).length⟩ := by
  obtain ⟨-, -, n, hout⟩ := load_ok hload
  obtain ⟨m, h, hrounds⟩ := hpos
  obtain ⟨n, hrest⟩ := hout.behind hrounds
  obtain ⟨k, hsteps, hk, hcursor⟩ := Cursor.steps_of_rounds local_readHeaderChunk hrounds
  obtain ⟨k', l, t, hsteps', hlast, hl, hend⟩ := Cursor.steps_of_outcome local_readHeaderChunk hrest
  cases hcursor
  exact ⟨m, n, h, t, k, k', l, hsteps, hsteps', hlast, hk, rfl, hl, hend⟩

/-- With a chunk of no known kind between two headers a file is opened as without it, and the same is left to read. -/
theorem load_insert {pos : Nat} (hload : Demuxer.load data = .ok d) (hpos : Between data pos) (f : Filler) :
    (Bytes.insertAt data pos f.content).size = data.size + f.content.length ∧
      ∃ e, Demuxer.load (Bytes.insertAt data pos f.content) = .ok e ∧ Demuxer.Behind f.content.length d e := by
  obtain ⟨hmark, hleft, -⟩ := load_ok hload
  obtain ⟨m, n, h, t, k, k', l, hsteps, hsteps', hlast, hk, rfl, hl, hcursor⟩ := parts_of_load hload hpos
  have hsome : k' ++ l ≠ [] := by
    intro hnil
    rw [(List.append_eq_nil_iff.mp hnil).2] at hlast
    exact not_gives_nil t _ hlast
  have hend := hl.le_size hsome
  have hpos : 12 + k.length ≤ data.size := by omega
  have hwide := hsteps.append (.next (f.gives h) hsteps')
  have hmark' : Holds (Bytes.insertAt data (12 + k.length) f.content) 8 (Text.bytes "AVI ") :=
    hmark.insert_before hpos (Nat.le_add_right 12 _)
  have hdata : Holds (Bytes.insertAt data (12 + k.length) f.content) 12 (k ++ (f.content ++ k') ++ l) := by
    rw [List.append_assoc, List.append_assoc]
    refine Holds.append_iff.mpr ⟨hk.insert_before hpos (Nat.le_refl _), Holds.append_iff.mpr ⟨?_, ?_⟩⟩
    · exact Bytes.holds_insertAt hpos _
    · exact hl.insert_behind hpos (Nat.le_refl _)
  have hload' := load_of_steps hmark' hwide (hwide.le_length fun h t => not_gives_nil h _) hlast hdata
  obtain ⟨cursor, header, left⟩ := d
  cases hcursor
  cases hleft
  have hstop : 12 + (k ++ (f.content ++ k') ++ l).length = 12 + k.length + (k' ++ l).length + f.content.length := by
    simp only [List.length_append]
    omega
  refine ⟨Bytes.size_insertAt hpos _, _, hload', ?_, ?_, rfl, rfl⟩
  · exact hstop
  · rw [hstop]
    exact Bytes.drop_insertAt hpos (Nat.le_add_right _ _) _

theorem load_widened (hwide : Widened data wide) (hload : Demuxer.load data = .ok d) :
    ∃ n e, wide.size = data.size + n ∧ Demuxer.load wide = .ok e ∧ Demuxer.Behind n d e := by
  induction hwide with
  | same => exact ⟨0, d, rfl, hload, rfl, rfl, rfl, rfl⟩
  | @insert wide pos f _ hpos heven ih =>
    obtain ⟨n, e, hsize, hload', hbehind⟩ := ih
    obtain ⟨hmore, e', hinsert, hbehind'⟩ := load_insert hload' hpos f
    rw [Filler.bytes_eq heven]
    exact ⟨n + f.content.length, e', by rw [hmore, hsize, Nat.add_assoc], hinsert, hbehind.trans hbehind'⟩

/-- Chunks of no known kind between the headers of a file do not matter, if their sizes are even: the file is opened with
the same header, and then it gives the same frames, and the same errors further behind. -/
theorem frames_of_widened (hwide : Widened data wide) (hload : Demuxer.load data = .ok d) :
    ∃ e, Demuxer.load wide = .ok e ∧ e.header = d.header ∧ ∀ k, Demuxer.answers k e =
      (Demuxer.answers k d).map (Except.mapError (VideoError.later (wide.size - data.size))) := by
  obtain ⟨n, e, hsize, hload', hbehind⟩ := load_widened hwide hload
  refine ⟨e, hload', hbehind.header, fun k => ?_⟩
  rw [hsize, Nat.add_sub_cancel_left, Demuxer.answers_behind hbehind k]

/-- A place between two parts of a file as it is written is a place between headers. -/
theorem Movie.between_parts {m : Movie} {file : ByteArray} (hfile : Bytes.list file = m.bytes) {l r : List Part}
    (hparts : m.parts = l ++ r) : Between file (12 + (l.flatMap Part.bytes).length) := by
  have hall := m.mainFirst
  have hholds := holds_parts hfile
  rw [hparts] at hall hholds
  rw [List.flatMap_append, List.append_assoc] at hholds
  exact ⟨l.length, _, (Part.steps_all (.inl hall)).rounds (c := ⟨file, 12⟩) hholds.left⟩

def shortFile : ByteArray := Bytes.ofList shortMovie.bytes

theorem list_shortFile : Bytes.list shortFile = shortMovie.bytes := by
  rw [shortFile, Bytes.list_ofList]

/-- Between the opening of the list of headers and the main header. -/
theorem between_shortFile : Between shortFile 24 :=
  Movie.between_parts (l := [_]) list_shortFile rfl

/-- Four bytes that nobody reads. -/
def junk : Filler where
  tag := "JUNK".toUTF8
  size_tag := rfl
  unknown := by decide
  payload := Bytes.ofList [1, 2, 3, 4]
  small := by decide

theorem frames_of_widened_junk : ∃ d e, Demuxer.load shortFile = .ok d ∧
    Demuxer.load (Bytes.insertAt shortFile 24 junk.bytes) = .ok e ∧ e.header = d.header ∧ ∀ k, Demuxer.answers k e =
      (Demuxer.answers k d).map (Except.mapError (VideoError.later
        ((Bytes.insertAt shortFile 24 junk.bytes).size - shortFile.size))) := by
  have hload := Movie.load_file list_shortFile
  obtain ⟨e, he⟩ := frames_of_widened (.insert junk .same between_shortFile rfl) hload
  exact ⟨_, e, hload, he⟩

/-- A chunk of one byte, which is followed by another one. -/
def oddJunk : Filler where
  tag := "JUNK".toUTF8
  size_tag := rfl
  unknown := by decide
  payload := Bytes.ofList [1]
  small := by decide

/-- With a chunk of an odd size between two headers a file need not be opened: the byte behind it is taken for the start
of a tag. -/
theorem odd_chunk_misread : (∃ d, Demuxer.load shortFile = .ok d) ∧ Between shortFile 24 ∧
    Demuxer.load (Bytes.insertAt shortFile 24 oddJunk.bytes) = .error .noMovie :=
  ⟨⟨_, Movie.load_file list_shortFile⟩, between_shortFile, Demuxer.load_of_refusal (by decide +kernel)⟩

end Avi

end Adventure
