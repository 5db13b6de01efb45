import Adventure.Proofs.Bytes.Loops
import Adventure.Proofs.Within
import Adventure.Video.Avi

/-! Cutscene files as they are written, and what is read from them. How far a record goes is known only
from the number of bytes that are left of it, which comes out at zero with the last chunk of the record;
so the records are read one after the other, each with its own chunks. -/

namespace Adventure

open Bytes (Holds)

namespace Avi

/-! ### Headers -/

/-- A main header that can be used: from one frame a second to a million, and two streams. -/
structure MainHeader where
  bytes : ByteArray
  size : bytes.size = 56
  interval : 0 < (field bytes 0).toNat ∧ (field bytes 0).toNat ≤ 1000000
  streams : field bytes 24 = 2
  width : (field bytes 32).toNat = frameWidth
  height : (field bytes 36).toNat = frameHeight

/-- The header of a stream of plain sound, or of pictures. -/
structure StreamHeader where
  bytes : ByteArray
  size : bytes.size = 56
  known : (isTag (bytes.extract 0 4) "auds" = true ∧ field bytes 4 = 0) ∨ isTag (bytes.extract 0 8) "vidscvid" = true

structure SoundFormat where
  bytes : ByteArray
  size : bytes.size = 16
  known : Bytes.le16? bytes 0 = some 1 ∧ Bytes.le16? bytes 2 = some 1 ∧ field bytes 4 = 44100 ∧
    Bytes.le16? bytes 14 = some 8

structure PictureFormat where
  bytes : ByteArray
  size : bytes.size = 40
  width : (field bytes 4).toNat = frameWidth
  height : (field bytes 8).toNat = frameHeight
  known : Bytes.le16? bytes 12 = some 1 ∧ Bytes.le16? bytes 14 = some 24

/-- What stands before the records. A list of headers counts with its opening only; the headers in it
are parts of their own. -/
inductive Part where
  | list (size : UInt32) (kind : ByteArray) (hsize : kind.size = 4) (hkind : isTag kind "movi" = false)
  | main (h : MainHeader)
  | stream (h : StreamHeader)
  | sound (f : SoundFormat)
  | pictures (f : PictureFormat)

namespace Part

def bytes : Part → List UInt8
  | .list size kind _ _ => Text.bytes "LIST" ++ (Bytes.long size ++ Bytes.list kind)
  | .main h => Text.bytes "avih" ++ (Bytes.long 56 ++ Bytes.list h.bytes)
  | .stream h => Text.bytes "strh" ++ (Bytes.long 56 ++ Bytes.list h.bytes)
  | .sound f => Text.bytes "strf" ++ (Bytes.long 16 ++ Bytes.list f.bytes)
  | .pictures f => Text.bytes "strf" ++ (Bytes.long 40 ++ Bytes.list f.bytes)

end Part

/-- The main header stands before the formats of pictures. -/
def MainFirst : List Part → Prop
  | [] => True
  | .main _ :: _ => True
  | .pictures _ :: _ => False
  | _ :: rest => MainFirst rest

/-! ### Records -/

/-- A chunk as it is written. The first two bytes of its tag are free, and so is the byte that makes its
size even. -/
structure Packet where
  stream : UInt8 × UInt8
  kind : ChunkKind
  payload : ByteArray
  pad : UInt8 := 0

namespace Packet

def tag (p : Packet) : ByteArray :=
  Bytes.ofList [p.stream.1, p.stream.2] ++ match p.kind with
    | .audio => "wb".toUTF8
    | .video => "dc".toUTF8

def data (p : Packet) : ByteArray := if p.payload.size % 2 = 0 then p.payload else p.payload.push p.pad

def bytes (p : Packet) : List UInt8 :=
  Bytes.list p.tag ++ (Bytes.long p.payload.size.toUInt32 ++ Bytes.list p.data)

/-- What is read of it. -/
def chunk (p : Packet) : Chunk := ⟨p.kind, p.data⟩

variable (p : Packet)

theorem size_tag : p.tag.size = 4 := by
  unfold tag
  cases p.kind <;> rfl

theorem kindOf_tag : Demuxer.kindOf p.tag = some p.kind := by
  -- the free bytes are cut off
  have hend (t : ByteArray) (ht : t.size = 2) : (Bytes.ofList [p.stream.1, p.stream.2] ++ t).extract 2 4 = t := by
    refine Bytes.list_inj ?_
    have hall : List.take 2 (Bytes.list t) = Bytes.list t := List.take_of_length_le (Nat.le_of_eq ht)
    simp [Bytes.list, Bytes.ofList, hall]
  unfold Demuxer.kindOf tag
  cases p.kind with
  | audio => rw [hend _ rfl]; rfl
  | video => rw [hend _ rfl]; rfl

theorem size_data : p.data.size = Demuxer.padded p.payload.size := by
  unfold data Demuxer.padded
  split
  · omega
  · rw [ByteArray.size_push]
    omega

theorem length_bytes : p.bytes.length = Demuxer.padded p.payload.size + 8 := by
  rw [bytes, List.length_append, List.length_append, Bytes.length_list, Bytes.length_list, Bytes.length_long,
    p.size_tag, p.size_data]
  omega

/-- Every chunk takes some bytes. -/
theorem length_le_bytes (l : List Packet) : l.length ≤ (l.flatMap bytes).length :=
  Bytes.length_le_flatMap fun p _ => List.ne_nil_of_length_pos (by rw [length_bytes]; omega)

end Packet

/-- The chunks of one frame, at least one, and not more than the size of the record can say. -/
structure Record where
  packets : List Packet
  nonempty : packets ≠ []
  small : 4 + (packets.flatMap Packet.bytes).length < 0x100000000

namespace Record

def body (r : Record) : List UInt8 := r.packets.flatMap Packet.bytes

def bytes (r : Record) : List UInt8 :=
  (Text.bytes "LIST" ++ (Bytes.long (4 + r.body.length).toUInt32 ++ Text.bytes "rec ")) ++ r.body

def chunks (r : Record) : List Chunk := r.packets.map Packet.chunk

end Record

/-- The opening of the list of records. -/
def opening (size : UInt32) : List UInt8 := Text.bytes "LIST" ++ (Bytes.long size ++ Text.bytes "movi")

/-- A file of headers and records. -/
structure Movie where
  parts : List Part
  mainFirst : MainFirst parts
  records : List Record

namespace Movie

def movi (m : Movie) : List UInt8 := m.records.flatMap Record.bytes

def content (m : Movie) : List UInt8 :=
  Text.bytes "AVI " ++ (m.parts.flatMap Part.bytes ++ opening (4 + m.movi.length).toUInt32)

def bytes (m : Movie) : List UInt8 :=
  (Text.bytes "RIFF" ++ Bytes.long (m.content ++ m.movi).length.toUInt32) ++ (m.content ++ m.movi)

end Movie

end Avi

namespace Demuxer

open Avi

/-! ### One chunk -/

def advance (d : Demuxer) (n : Nat) : Demuxer := { d with cursor := { d.cursor with pos := d.cursor.pos + n } }

theorem onCursor_eq {α : Type} {m : ReadM VideoError α} {a : α} {l : List UInt8} (hm : Cursor.Gives m a l)
    {d : Demuxer} (hd : Holds d.cursor.data d.cursor.pos l) : onCursor m d = .ok a (d.advance l.length) := by
  rw [onCursor, hm d.cursor hd]
  rfl

/-- The opening of a record tells how many bytes it has. -/
def openRecord : M Unit := do
  let list ← onCursor (Cursor.bytes 12)
  modify fun d => { d with left := (field list 4).toNat - 4 }

/-- A chunk within a record. -/
def readPacket : M (Option Chunk) := do
  let tag ← onCursor (Cursor.bytes 4)
  let size := (← onCursor Cursor.u32).toNat
  let available := (← get).cursor.remaining
  if available < size then throw (.chunkSize size available)
  modify fun d => { d with left := d.left - (padded size + 8) }
  let data ← onCursor (Cursor.bytes (min (padded size) available))
  match kindOf tag with
  | none => return none
  | some kind =>
    modify fun d => { d with left := max d.left 0 }
    return some ⟨kind, data⟩

theorem nextChunk_end {d : Demuxer} (hend : d.cursor.remaining < 8) : nextChunk d = .ok none d := by
  refine (bind_of_ok (m := get) rfl).trans ?_
  rw [if_pos hend]
  rfl

theorem nextChunk_within {d : Demuxer} (hroom : 8 ≤ d.cursor.remaining) (hleft : 0 < d.left) :
    nextChunk d = readPacket d := by
  have hroom' : ¬ d.cursor.remaining < 8 := by omega
  have hleft' : ¬ d.left ≤ 0 := by omega
  refine (bind_of_ok (m := get) rfl).trans ?_
  rw [if_neg hroom']
  refine (bind_of_ok (m := get) rfl).trans ?_
  rw [if_neg hleft']
  rfl

theorem nextChunk_open {d : Demuxer} (hroom : 8 ≤ d.cursor.remaining) (hleft : d.left ≤ 0) :
    nextChunk d = (openRecord >>= fun _ => readPacket) d := by
  have hroom' : ¬ d.cursor.remaining < 8 := by omega
  refine (bind_of_ok (m := get) rfl).trans ?_
  rw [if_neg hroom']
  refine (bind_of_ok (m := get) rfl).trans ?_
  rw [if_pos hleft]
  simp only [openRecord, Bind.bind, EStateM.bind]
  cases onCursor (Cursor.bytes 12) d <;> rfl

/-- What a place holds is not behind the end. -/
theorem le_remaining {d : Demuxer} {l : List UInt8} (hd : Holds d.cursor.data d.cursor.pos l) :
    l.length ≤ d.cursor.remaining := by
  have hlen := List.IsPrefix.length_le hd
  rwa [List.length_drop, Bytes.length_list] at hlen

variable {d : Demuxer}

theorem openRecord_eq {n : UInt32}
    (hd : Holds d.cursor.data d.cursor.pos (Text.bytes "LIST" ++ (Bytes.long n ++ Text.bytes "rec "))) :
    openRecord d = .ok () { d.advance 12 with left := n.toNat - 4 } := by
  let opening := Bytes.ofList (Text.bytes "LIST" ++ (Bytes.long n ++ Text.bytes "rec "))
  have hlist : Bytes.list opening = Text.bytes "LIST" ++ (Bytes.long n ++ Text.bytes "rec ") := Bytes.list_ofList _
  have hsize : opening.size = 12 := Bytes.size_ofList _
  have hfield : field opening 4 = n := by
    have hown := Bytes.holds_list opening
    rw [hlist] at hown
    rw [field, show Bytes.le32? opening 4 = some n from hown.right.left.le32]
    rfl
  rw [← hlist] at hd
  have hread := onCursor_eq (Cursor.gives_bytes (ε := VideoError) hsize) hd
  simp only [openRecord, Bind.bind, EStateM.bind, hread, hfield]
  rfl

theorem readPacket_eq (p : Packet) (hsize : p.payload.size < 0x100000000)
    (hd : Holds d.cursor.data d.cursor.pos p.bytes) :
    readPacket d = .ok (some p.chunk) { d.advance p.bytes.length with left := max (d.left - p.bytes.length) 0 } := by
  have htag : onCursor (Cursor.bytes 4) d = .ok p.tag (d.advance 4) := by
    simpa [Bytes.length_list, p.size_tag] using onCursor_eq (Cursor.gives_bytes p.size_tag) hd.left
  have hfields := hd.right
  rw [Bytes.length_list, p.size_tag] at hfields
  have hlong : onCursor Cursor.u32 (d.advance 4) = .ok p.payload.size.toUInt32 (d.advance 8) :=
    onCursor_eq (d := d.advance 4) (Cursor.gives_u32 _) hfields.left
  have hdata : Holds (d.advance 8).cursor.data (d.advance 8).cursor.pos (Bytes.list p.data) := hfields.right
  have hroom := le_remaining hdata
  rw [Bytes.length_list, p.size_data] at hroom
  have hnat : p.payload.size.toUInt32.toNat = p.payload.size := UInt32.toNat_ofNat_of_lt' hsize
  have hfits : ¬ (d.advance 8).cursor.remaining < p.payload.size := by
    unfold padded at hroom
    omega
  unfold readPacket
  rw [bind_of_ok htag, bind_of_ok hlong]
  simp only [hnat]
  refine (bind_of_ok (m := get) rfl).trans ?_
  simp only [if_neg hfits, Nat.min_eq_left hroom]
  refine (bind_of_ok (m := modify _) rfl).trans ?_
  have hread := onCursor_eq (d := { d.advance 8 with left := d.left - (padded p.payload.size + 8) })
    (Cursor.gives_bytes (ε := VideoError) p.size_data) hdata
  refine (bind_of_ok hread).trans ?_
  rw [p.kindOf_tag]
  refine (bind_of_ok (m := modify _) rfl).trans ?_
  have hpos : d.cursor.pos + 8 + (Bytes.list p.data).length = d.cursor.pos + p.bytes.length := by
    rw [Bytes.length_list, p.size_data, p.length_bytes]
    omega
  have hleft : d.left - (padded p.payload.size + 8) = d.left - p.bytes.length := by
    rw [p.length_bytes]
    rfl
  simp only [advance, hpos, hleft]
  rfl

/-! ### One record -/

/-- The chunks up to the end of the record, when just they are left of it. -/
theorem chunksFrom_packets {packets : List Packet} (hne : packets ≠ []) {fuel : Nat} (hfuel : packets.length ≤ fuel)
    (acc : List Chunk) (hsmall : (packets.flatMap Packet.bytes).length < 0x100000000)
    (hd : Holds d.cursor.data d.cursor.pos (packets.flatMap Packet.bytes))
    (hleft : d.left = (packets.flatMap Packet.bytes).length) :
    chunksFrom fuel acc d = .ok (acc.reverse ++ packets.map Packet.chunk)
      { d.advance (packets.flatMap Packet.bytes).length with left := 0 } := by
  induction packets generalizing fuel acc d with
  | nil => exact absurd rfl hne
  | cons p rest ih =>
    obtain ⟨fuel, rfl⟩ := Nat.exists_eq_add_of_le' (Nat.lt_of_lt_of_le (Nat.succ_pos _) hfuel)
    rw [List.flatMap_cons] at hd hsmall hleft ⊢
    rw [List.length_append] at hsmall hleft ⊢
    have hlen := p.length_bytes
    have hpadded : p.payload.size ≤ padded p.payload.size := by
      unfold padded
      omega
    have hroom := le_remaining hd.left
    -- the first chunk leaves as many bytes as the others have
    have hchunk : nextChunk d = .ok (some p.chunk)
        { d.advance p.bytes.length with left := (rest.flatMap Packet.bytes).length } := by
      have hmax : max (d.left - p.bytes.length) 0 = (rest.flatMap Packet.bytes).length := by omega
      rw [nextChunk_within (by omega) (by omega), readPacket_eq p (by omega) hd.left, hmax]
    rw [chunksFrom, bind_of_ok hchunk]
    refine (bind_of_ok (m := get) rfl).trans ?_
    by_cases hrest : rest = []
    · subst hrest
      simp only [List.flatMap_nil, List.length_nil, Int.natCast_zero, if_true, List.map_cons, List.map_nil,
        List.reverse_cons]
      rfl
    · have hmore : ((rest.flatMap Packet.bytes).length : Int) ≠ 0 := by
        obtain ⟨q, rest, rfl⟩ := List.exists_cons_of_ne_nil hrest
        rw [List.flatMap_cons, List.length_append, q.length_bytes]
        omega
      rw [if_neg hmore, ih (d := { d.advance p.bytes.length with left := (rest.flatMap Packet.bytes).length }) hrest
        (Nat.le_of_succ_le_succ hfuel) _ (by omega) hd.right rfl]
      simp only [advance, List.reverse_cons, List.map_cons, List.append_assoc, Nat.add_assoc]
      rfl

/-- Between two records the whole next one is read. -/
theorem nextFrame_record (r : Record) (hd : Holds d.cursor.data d.cursor.pos r.bytes) (hleft : d.left = 0) :
    nextFrame d = .ok r.chunks (d.advance r.bytes.length) := by
  let inside : Demuxer := { d.advance 12 with left := r.body.length }
  have hlen : r.bytes.length = 12 + r.body.length := by
    rw [Record.bytes, List.length_append]
    rfl
  have hsmall := r.small
  have hbody : Holds inside.cursor.data inside.cursor.pos r.body := hd.right
  obtain ⟨p, rest, hpackets⟩ := List.exists_cons_of_ne_nil r.nonempty
  have hpos : 8 ≤ r.body.length := by
    rw [Record.body, hpackets, List.flatMap_cons, List.length_append, p.length_bytes]
    omega
  have hroom := le_remaining hd
  have hinside := le_remaining hbody
  -- once the record is open, its first chunk is read as any other one
  have hopen : openRecord d = .ok () inside := by
    have hnat : (4 + r.body.length).toUInt32.toNat = 4 + r.body.length := UInt32.toNat_ofNat_of_lt' hsmall
    have hbytes : ((4 + r.body.length : Nat) : Int) - 4 = r.body.length := by omega
    rw [openRecord_eq hd.left, hnat, hbytes]
  have hfirst : nextChunk d = nextChunk inside := by
    rw [nextChunk_open (by omega) (by omega), bind_of_ok hopen,
      nextChunk_within (by omega) (Int.natCast_pos.mpr (by omega))]
  have hfuel : r.packets.length ≤ d.cursor.remaining + 1 := by
    have hcount := Packet.length_le_bytes r.packets
    unfold Record.body at hlen
    omega
  calc nextFrame d = chunksFrom (d.cursor.remaining + 1) [] d := bind_of_ok (m := get) rfl
    _ = chunksFrom (d.cursor.remaining + 1) [] inside := bind_congr_result hfirst
    _ = .ok r.chunks { inside.advance r.body.length with left := 0 } :=
      chunksFrom_packets r.nonempty hfuel [] (by unfold Record.body at hlen; omega) hbody rfl
    _ = .ok r.chunks (d.advance r.bytes.length) := by
      rw [hlen, ← hleft]
      simp only [inside, advance, Nat.add_assoc]

/-- There is no frame at the end of the file. -/
theorem nextFrame_end (hend : d.cursor.remaining < 8) : nextFrame d = .ok [] d := by
  refine (bind_of_ok (m := get) rfl).trans ?_
  rw [chunksFrom, bind_of_ok (nextChunk_end hend)]
  rfl

/-- The frame after `k` others. -/
def frameAfter : Nat → M (List Chunk)
  | 0 => nextFrame
  | k + 1 => do
    discard nextFrame
    frameAfter k

/-- The records that are still to come are the next frames, and behind them there are none. -/
theorem frameAfter_records (records : List Record) (hd : Holds d.cursor.data d.cursor.pos (records.flatMap Record.bytes))
    (hend : d.cursor.remaining = (records.flatMap Record.bytes).length) (hleft : d.left = 0) (k : Nat) :
    ∃ t, frameAfter k d = .ok ((records[k]?.map Record.chunks).getD []) t := by
  induction k generalizing records d with
  | zero =>
    cases records with
    | nil => exact ⟨d, nextFrame_end (hend ▸ Nat.zero_lt_succ _)⟩
    | cons r records => exact ⟨_, nextFrame_record r hd.left hleft⟩
  | succ k ih =>
    cases records with
    | nil =>
      obtain ⟨t, ht⟩ := ih [] hd hend hleft
      have hskip : (discard nextFrame : M Unit) d = .ok () d := bind_of_ok (nextFrame_end (hend ▸ Nat.zero_lt_succ _))
      exact ⟨t, (bind_of_ok hskip).trans (by simpa using ht)⟩
    | cons r records =>
      have hskip : (discard nextFrame : M Unit) d = .ok () (d.advance r.bytes.length) :=
        bind_of_ok (nextFrame_record r hd.left hleft)
      have hrest : (d.advance r.bytes.length).cursor.remaining = (records.flatMap Record.bytes).length := by
        rw [List.flatMap_cons, List.length_append] at hend
        change d.cursor.data.size - (d.cursor.pos + r.bytes.length) = _
        unfold Cursor.remaining at hend
        omega
      obtain ⟨t, ht⟩ := ih (d := d.advance r.bytes.length) records hd.right hrest hleft
      exact ⟨t, (bind_of_ok hskip).trans ht⟩

end Demuxer

namespace Avi

/-! ### Reading headers -/

/-- The size of the pictures stands in the header. -/
def Sized (h : AviHeader) : Prop := h.width.toNat = frameWidth ∧ h.height.toNat = frameHeight

variable {h : AviHeader}

namespace MainHeader

/-- What is read of a main header. -/
def read (h : AviHeader) (m : MainHeader) : AviHeader :=
  { h with
    frameRate := 1000000 / field m.bytes 0
    frames := field m.bytes 16
    streams := field m.bytes 24
    width := field m.bytes 32
    height := field m.bytes 36 }

theorem gives (h : AviHeader) (m : MainHeader) : Cursor.Gives (readMain h) (m.read h) (Bytes.list m.bytes) := by
  refine (Cursor.gives_bytes m.size).bind_nil fun c _ => ?_
  have hinterval := m.interval
  have hfield : ¬ field m.bytes 0 = 0 := fun h0 => by
    rw [h0] at hinterval
    exact absurd hinterval.1 (by decide)
  have hrate : ¬ 1000000 / field m.bytes 0 = 0 := fun h0 => by
    have hdiv := congrArg UInt32.toNat h0
    rw [UInt32.toNat_div] at hdiv
    exact absurd hdiv (Nat.ne_of_gt (Nat.div_pos hinterval.2 hinterval.1))
  simp [hfield, hrate, m.streams, m.width, m.height, read]
  rfl

end MainHeader

namespace StreamHeader

/-- What is read of the header of a stream. -/
def read (h : AviHeader) (s : StreamHeader) : AviHeader :=
  if isTag (s.bytes.extract 0 4) "auds" ∧ field s.bytes 4 = 0 then { h with audioBuffer := field s.bytes 36 }
  else { h with videoBuffer := field s.bytes 36 }

theorem gives (h : AviHeader) (s : StreamHeader) :
    Cursor.Gives (readStream h) (s.read h) (Bytes.list s.bytes) := by
  refine (Cursor.gives_bytes s.size).bind_nil fun c _ => ?_
  unfold read
  by_cases hsound : isTag (s.bytes.extract 0 4) "auds" = true ∧ field s.bytes 4 = 0
  · rw [if_pos hsound, if_pos hsound]
    rfl
  · rw [if_neg hsound, if_neg hsound, if_pos (s.known.resolve_left hsound)]
    rfl

theorem sized_read (s : StreamHeader) (hh : Sized h) : Sized (s.read h) := by
  unfold read
  split
  · exact hh
  · exact hh

end StreamHeader

theorem SoundFormat.gives (f : SoundFormat) : Cursor.Gives readSoundFormat () (Bytes.list f.bytes) := by
  refine (Cursor.gives_bytes f.size).bind_nil fun c _ => ?_
  rw [if_neg (not_not_intro f.known)]
  rfl

theorem PictureFormat.gives {h : AviHeader} (hh : Sized h) (f : PictureFormat) :
    Cursor.Gives (readPictureFormat h) () (Bytes.list f.bytes) := by
  refine (Cursor.gives_bytes f.size).bind_nil fun c _ => ?_
  have hwidth : field f.bytes 4 = h.width := UInt32.toNat_inj.mp (f.width.trans hh.1.symm)
  have hheight : field f.bytes 8 = h.height := UInt32.toNat_inj.mp (f.height.trans hh.2.symm)
  rw [if_neg (not_not_intro ⟨hwidth, hheight, f.known⟩)]
  rfl

namespace Part

def read (h : AviHeader) : Part → AviHeader
  | .main m => m.read h
  | .stream s => s.read h
  | _ => h

/-- A part is read in one step; a format of pictures only behind the main header. -/
theorem gives (h : AviHeader) (p : Part) (hp : ∀ f, p = .pictures f → Sized h) :
    Cursor.Gives (readHeaderChunk h) (.inl (p.read h)) p.bytes := by
  cases p with
  | list size kind hsize hkind =>
    refine (Cursor.gives_bytes (b := "LIST".toUTF8) rfl).bind ((Cursor.gives_u32 size).bind ?_)
    rw [if_pos (by decide)]
    refine (Cursor.gives_bytes hsize).bind_nil fun c _ => ?_
    rw [hkind]
    rfl
  | main m =>
    refine (Cursor.gives_bytes (b := "avih".toUTF8) rfl).bind ((Cursor.gives_u32 56).bind ?_)
    rw [if_neg (by decide), if_pos (by decide)]
    exact (m.gives h).map _
  | stream s =>
    refine (Cursor.gives_bytes (b := "strh".toUTF8) rfl).bind ((Cursor.gives_u32 56).bind ?_)
    rw [if_neg (by decide), if_neg (by decide), if_pos (by decide)]
    exact (s.gives h).map _
  | sound f =>
    refine (Cursor.gives_bytes (b := "strf".toUTF8) rfl).bind ((Cursor.gives_u32 16).bind ?_)
    rw [if_neg (by decide), if_neg (by decide), if_neg (by decide), if_pos (by decide)]
    exact f.gives.map _
  | pictures f =>
    refine (Cursor.gives_bytes (b := "strf".toUTF8) rfl).bind ((Cursor.gives_u32 40).bind ?_)
    rw [if_neg (by decide), if_neg (by decide), if_neg (by decide), if_neg (by decide), if_pos (by decide)]
    exact (PictureFormat.gives (hp f rfl) f).map _

theorem bytes_ne_nil (p : Part) : p.bytes ≠ [] := List.length_pos_iff.mp (by cases p <;> exact Nat.zero_lt_succ _)

/-- The size of the pictures is known where their format is read. -/
theorem sized_read {h : AviHeader} {p : Part} {rest : List Part} (hready : MainFirst (p :: rest) ∨ Sized h) :
    (∀ f, p = .pictures f → Sized h) ∧ (MainFirst rest ∨ Sized (p.read h)) := by
  refine ⟨?_, ?_⟩
  · rintro f rfl
    exact hready.resolve_left id
  · cases p with
    | main m => exact .inr ⟨m.width, m.height⟩
    | pictures f => exact .inr (hready.resolve_left id)
    | stream s => exact hready.imp id s.sized_read
    | list size kind hsize hkind => exact hready.imp id id
    | sound f => exact hready.imp id id

theorem gives_opening (h : AviHeader) (size : UInt32) : Cursor.Gives (readHeaderChunk h) (.inr h) (opening size) := by
  refine (Cursor.gives_bytes (b := "LIST".toUTF8) rfl).bind ((Cursor.gives_u32 size).bind ?_)
  rw [if_pos (by decide)]
  exact (Cursor.gives_bytes (b := "movi".toUTF8) rfl).bind_nil fun c _ => rfl

theorem steps_all {l r : List Part} {h : AviHeader} (hready : MainFirst (l ++ r) ∨ Sized h) :
    Cursor.Steps readHeaderChunk l.length h (l.flatMap bytes) (l.foldl read h) :=
  Cursor.steps_foldl (I := fun l h => MainFirst (l ++ r) ∨ Sized h)
    (fun p _ h hready => ⟨gives h p (sized_read hready).1, (sized_read hready).2⟩) hready

end Part

/-- Behind the mark of a file stand its headers and then the opening of its records. -/
theorem load_of_steps {file : ByteArray} {n : Nat} {r : AviHeader} {k l : List UInt8}
    (hmark : Holds file 8 (Text.bytes "AVI ")) (hsteps : Cursor.Steps readHeaderChunk n {} k h) (hn : n ≤ k.length)
    (hlast : Cursor.Gives (readHeaderChunk h) (.inr r) l) (hdata : Holds file 12 (k ++ l)) :
    Demuxer.load file = .ok { cursor := ⟨file, 12 + (k ++ l).length⟩, header := r } := by
  have htag : Cursor.bytes (ε := VideoError) 4 ⟨file, 8⟩ = .ok "AVI ".toUTF8 ⟨file, 12⟩ :=
    Cursor.gives_bytes (b := "AVI ".toUTF8) rfl ⟨file, 8⟩ hmark
  have hread : readHeaders ⟨file, 0⟩ = .ok r ⟨file, 12 + (k ++ l).length⟩ := by
    unfold readHeaders
    refine (bind_of_ok (m := Cursor.seek 8) rfl).trans ((bind_of_ok htag).trans ?_)
    rw [if_neg (by decide)]
    exact Cursor.gives_loop hsteps hn hlast ⟨file, 12⟩ hdata
  rw [Demuxer.load, hread]

namespace Movie

variable {m : Movie}

/-! The file is any buffer of these bytes: as a term of its own the buffer would be evaluated. -/

variable {file : ByteArray} (hfile : Bytes.list file = m.bytes)
include hfile

theorem size_file : file.size = 8 + (m.content.length + m.movi.length) := by
  have hhead (size : UInt32) : (Text.bytes "RIFF" ++ Bytes.long size).length = 8 := rfl
  rw [← Bytes.length_list, hfile, bytes, List.length_append, hhead, List.length_append]

theorem holds_content : Holds file 8 (m.content ++ m.movi) := by
  have hhead (size : UInt32) : (Text.bytes "RIFF" ++ Bytes.long size).length = 8 := rfl
  have hown := Bytes.holds_list file
  rw [hfile] at hown
  have hrest := hown.right
  rwa [hhead] at hrest

/-- What stands between the mark of the file and its records. -/
theorem holds_parts : Holds file 12 (m.parts.flatMap Part.bytes ++ opening (4 + m.movi.length).toUInt32) := by
  have hmark : (Text.bytes "AVI ").length = 4 := rfl
  have hparts := (holds_content hfile).left.right
  rwa [hmark] at hparts

/-- A file can be opened, and what stands next are its records. -/
theorem load_file : Demuxer.load file =
    .ok { cursor := ⟨file, 8 + m.content.length⟩, header := m.parts.foldl Part.read {} } := by
  have hlen : 8 + m.content.length =
      12 + (m.parts.flatMap Part.bytes ++ opening (4 + m.movi.length).toUInt32).length := by
    have hmark : (Text.bytes "AVI ").length = 4 := rfl
    rw [content, List.length_append, hmark, ← Nat.add_assoc]
  have hsteps := Part.steps_all (l := m.parts) (r := []) (h := {}) (.inl (by rw [List.append_nil]; exact m.mainFirst))
  rw [hlen]
  exact load_of_steps (holds_content hfile).left.left hsteps
    (Bytes.length_le_flatMap fun p _ => p.bytes_ne_nil) (Part.gives_opening _ _) (holds_parts hfile)

/-- Behind the records the file ends. -/
theorem remaining_movi : (⟨file, 8 + m.content.length⟩ : Cursor).remaining = m.movi.length := by
  rw [Cursor.remaining, size_file hfile, ← Nat.add_assoc]
  exact Nat.add_sub_cancel_left _ _

end Movie

/-- Every record of a file is a frame: a file of headers that can be used and of records can be opened,
the frame after `k` others has just the chunks of the record at that place, with their payloads and the
bytes that make their sizes even, and behind the last record frames are empty. -/
theorem frames_eq_records (m : Movie) : ∃ d, Demuxer.load (Bytes.ofList m.bytes) = .ok d ∧
    ∀ k, ∃ t, Demuxer.frameAfter k d = .ok ((m.records[k]?.map Record.chunks).getD []) t := by
  have hfile : Bytes.list (Bytes.ofList m.bytes) = m.bytes := Bytes.list_ofList _
  generalize Bytes.ofList m.bytes = file at hfile
  exact ⟨_, Movie.load_file hfile, Demuxer.frameAfter_records m.records (Movie.holds_content hfile).right
    (Movie.remaining_movi hfile) rfl⟩

/-- Two frames, one with sound of an odd size. -/
def shortMovie : Movie where
  parts :=
    [.list 0 "hdrl".toUTF8 rfl rfl,
      .main ⟨Bytes.ofList (Bytes.long 66666 ++ List.replicate 20 0 ++ Bytes.long 2 ++ List.replicate 4 0 ++
        Bytes.long 320 ++ Bytes.long 200 ++ List.replicate 16 0), rfl, by decide, by decide, by decide, by decide⟩,
      .stream ⟨Bytes.ofList (Text.bytes "vidscvid" ++ List.replicate 48 0), rfl, by decide⟩,
      .pictures ⟨Bytes.ofList (Bytes.long 40 ++ Bytes.long 320 ++ Bytes.long 200 ++ [1, 0, 24, 0] ++
        List.replicate 24 0), rfl, by decide, by decide, by decide⟩]
  mainFirst := trivial
  records :=
    [⟨[⟨(48, 49), .audio, Bytes.ofList [1, 2, 3], 0⟩, ⟨(48, 48), .video, Bytes.ofList [4, 5], 0⟩], by simp, by decide⟩,
      ⟨[⟨(48, 48), .video, Bytes.ofList [6], 7⟩], by simp, by decide⟩]

example : shortMovie.records.map (fun r => r.chunks.map fun c => (c.kind, Bytes.list c.data)) =
    [[(.audio, [1, 2, 3, 0]), (.video, [4, 5])], [(.video, [6, 7])]] := by
  decide

end Avi

end Adventure
