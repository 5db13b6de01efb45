import Adventure.Proofs.Video.CinepakBlocks
import Adventure.Proofs.Video.CinepakBooks
import Adventure.Proofs.Video.CinepakFrame

/-! Pictures as they are written and read. A decoder that reads the bytes of a picture shows the picture on top
of the one before it, and keeps the books of both strips. -/

namespace Adventure.Cinepak

variable {data : ByteArray} {yEnd : Nat}

/-! ### Chunks -/

theorem takes_advance_zero (s : State) : Takes data (advance 0) [] s () s := .still fun _ => rfl

theorem takes_chunk {kind : UInt16} {l : List UInt8} {s t : State} (hl : Takes data (content data yEnd kind l.length) l s 0 t)
    (hfits : l.length + 4 < 2 ^ 16) : Takes data (chunk data yEnd) (chunkBytes kind l) s (l.length + 4) t := by
  have htotal : (UInt16.ofNat (l.length + 4)).toNat = l.length + 4 := UInt16.toNat_ofNat_of_lt' hfits
  have hsize : ((l.length + 4 : Nat) : Int) - 4 = l.length := by omega
  rw [chunkBytes, List.append_assoc]
  refine (takes_word kind s).bind ((takes_word _ s).bind ?_)
  simp only [htotal, hsize]
  exact hl.bind_nil ((takes_advance_zero t).bind (.value _ t))

/-- A chunk and those behind it. -/
theorem takes_chunks_cons {kind : UInt16} {l rest : List UInt8} {s t u : State} {size : Int}
    (hl : Takes data (content data yEnd kind l.length) l s 0 t) (hfits : l.length + 4 < 2 ^ 16)
    (hrest : Takes data (chunks data yEnd (size - (l.length + 4 : Nat))) rest t () u) (hsize : 0 < size) :
    Takes data (chunks data yEnd size) (chunkBytes kind l ++ rest) s () u := by
  intro pos h
  refine chunks_ok_iff.mpr (.inr ⟨hsize, _, _, takes_chunk hl hfits pos h.left, ?_⟩)
  rw [hrest _ h.right, List.length_append, Nat.add_assoc]

theorem length_chunkBytes (kind : UInt16) (l : List UInt8) : (chunkBytes kind l).length = l.length + 4 := by
  simp [chunkBytes, bigWord]

theorem takes_chunks (updates : List Update) (image : Image) (hfits : (chunkList updates image).length < 2 ^ 16) {s : State}
    (hleft : s.Left yEnd image.blocks.length) :
    Takes data (chunks data yEnd (chunkList updates image).length) (chunkList updates image) s ()
      (image.blocks.foldl State.pick { s with books := updates.foldl Update.apply s.books }) := by
  induction updates generalizing s with
  | nil =>
    rw [chunkList, List.flatMap_nil, List.nil_append, length_chunkBytes] at *
    have hdone : Takes data (chunks data yEnd (((image.content.length + 4 : Nat) : Int) - (image.content.length + 4 : Nat))) []
        (image.blocks.foldl State.pick s) () (image.blocks.foldl State.pick s) := by
      exact .still fun _ => chunks_done (Int.le_of_eq (Int.sub_self _)) _
    exact .congr (takes_chunks_cons (takes_image image hleft) hfits hdone (by omega)) (List.append_nil _)
  | cons u updates ih =>
    have hcons : chunkList (u :: updates) image = chunkBytes u.kind u.content ++ chunkList updates image := by
      rw [chunkList, List.flatMap_cons, List.append_assoc]
      rfl
    rw [hcons] at hfits ⊢
    rw [List.length_append, length_chunkBytes] at hfits ⊢
    have hrest := ih (by omega) (s := { s with books := u.apply s.books }) (hleft.moved rfl rfl)
    have hleftover : ((u.content.length + 4 + (chunkList updates image).length : Nat) : Int) - (u.content.length + 4 : Nat) =
        (chunkList updates image).length := by omega
    refine takes_chunks_cons (takes_update u yEnd s) (by omega) ?_ (by omega)
    rw [hleftover]
    exact hrest

/-! ### Strips -/

theorem Takes.discard {α : Type} {m : M α} {l : List UInt8} {s t : State} {a : α} (hm : Takes data m l s a t) :
    Takes data (discard m) l s () t := by
  intro pos h
  simp only [Functor.discard, Functor.mapConst, Function.comp, EStateM.map, hm pos h]

/-- Where a strip leads that starts in the row where the state is. -/
def StripCode.paint (c : StripCode) (s : State) : State :=
  (c.blocks s.books).foldl State.step { s with x := 0, books := c.books s.books }

theorem takes_strip (c : StripCode) (hrows : c.rows ≤ 50) (s : State) :
    Takes data (strip data s.y) c.bytes s (s.y + 4 * c.rows) (c.paint s) := by
  have hheight : (UInt16.ofNat (4 * c.rows)).toNat = 4 * c.rows := UInt16.toNat_ofNat_of_lt' (by simp only [UInt16.size]; omega)
  have hfits := c.fits
  have hsize : (UInt16.ofNat ((chunkList c.updates c.image).length + 12)).toNat = (chunkList c.updates c.image).length + 12 :=
    UInt16.toNat_ofNat_of_lt' hfits
  have hleft : State.Left { s with x := 0 } (s.y + 4 * c.rows) c.image.blocks.length :=
    ⟨s.y, 0, c.rows, ⟨rfl, rfl⟩, rfl, (Nat.zero_add _).trans c.complete⟩
  have hread := @takes_chunks data _ c.updates c.image (by omega) _ hleft
  rw [foldl_pick] at hread
  have hcontent : (((chunkList c.updates c.image).length + 12 : Nat) : Int) - 12 = (chunkList c.updates c.image).length := by omega
  simp only [StripCode.bytes, List.append_assoc, strip]
  refine (takes_word c.kind s).discard.bind <| (takes_word _ s).bind <| (takes_word c.top s).discard.bind <|
    (takes_word c.left s).discard.bind <| (takes_word _ s).bind <| (takes_word c.right s).discard.bind ?_
  simp only [hheight, hsize, hcontent]
  exact .after (fun _ => rfl) (hread.bind_nil (.value _ _))

/-- A strip is painted below the row where it starts, and the next one starts where it ends. -/
theorem StripCode.paint_spec (c : StripCode) {s : State} (hframe : s.frame.size = frameBytes) :
    (c.paint s).y = s.y + 4 * c.rows ∧ (c.paint s).books = c.books s.books ∧ (c.paint s).frame.size = frameBytes ∧
      ∀ row < Avi.frameHeight, ∀ k < pitch,
        pixels (c.paint s).frame row k = painted s.y (c.blocks s.books) (pixels s.frame) row k := by
  have hstart : State.At { s with x := 0, books := c.books s.books } s.y 0 := ⟨rfl, rfl⟩
  obtain ⟨hat, hsize, hpixels⟩ := pixels_steps hstart hframe (c.blocks s.books)
  have hlen : (c.blocks s.books).length = rowBlocks * c.rows := (List.length_map ..).trans c.complete
  refine ⟨?_, ?_, hsize, hpixels⟩
  · have hy := hat.y
    rw [hlen, Nat.mul_div_cancel_left c.rows (by decide)] at hy
    exact hy
  · exact State.books_steps _ _

/-! ### Pictures -/

theorem takes_header (p : PictureCode) (s : State) :
    Takes data (header data) ([p.flags, p.length₀, p.length₁, p.length₂] ++ (bigWord 320 ++ (bigWord 200 ++ bigWord 2)))
      s p.flags s := by
  have hskip : Takes data (advance 3) [p.length₀, p.length₁, p.length₂] s () s := fun _ _ => rfl
  refine (takes_byte p.flags s).bind <| hskip.bind <| (takes_word 320 s).bind <| (takes_word 200 s).bind <|
    (takes_word 2 s).bind_nil ?_
  rw [if_neg (by decide)]
  exact .value p.flags s

/-- What follows may look at the state, but not at the place where it reads. -/
theorem Takes.look {β : Type} {f : State → M β} {l : List UInt8} {s u : State} {b : β}
    (h : ∀ pos, Takes data (f { s with pos }) l s b u) : Takes data (get >>= f) l s b u := fun pos hl => h pos pos hl

/-- The books that the lower strip starts with are chosen, and it is read. -/
theorem takes_lower {α : Type} (p : PictureCode) (lower : Codebooks) {top : Nat} {s : State} (htop : s.y = top) (a : α) :
    Takes data
      (if p.flags &&& 1 ≠ 0 then (modify fun s => { s with books := lower }) >>= fun _ =>
        discard (strip data top) >>= fun _ => pure a
      else discard (strip data top) >>= fun _ => pure a)
      p.lower.bytes s a (p.lower.paint { s with books := if p.flags &&& 1 = 0 then s.books else lower }) := by
  have hrows : p.lower.rows ≤ 50 := by
    have := p.rows
    omega
  subst htop
  by_cases hflag : p.flags &&& 1 = 0
  · rw [if_neg (not_not.mpr hflag), if_pos hflag]
    exact (takes_strip p.lower hrows s).discard.bind_nil (.value a _)
  · rw [if_pos hflag, if_neg hflag]
    exact .after (fun _ => rfl) ((takes_strip p.lower hrows { s with books := lower }).discard.bind_nil (.value a _))

theorem takes_picture (p : PictureCode) (lower : Codebooks) {s : State} (hy : s.y = 0) (hframe : s.frame.size = frameBytes) :
    Takes data (Cinepak.picture data lower) p.bytes s (p.upper.books s.books)
      (p.lower.paint { p.upper.paint s with books := if p.flags &&& 1 = 0 then p.upper.books s.books else lower }) := by
  obtain ⟨hrow, hbooks, -, -⟩ := p.upper.paint_spec hframe
  have hrows : p.upper.rows ≤ 50 := by
    have := p.rows
    omega
  have hbytes : p.bytes = ([p.flags, p.length₀, p.length₁, p.length₂] ++ (bigWord 320 ++ (bigWord 200 ++ bigWord 2))) ++
      (p.upper.bytes ++ p.lower.bytes) := by
    simp only [PictureCode.bytes, List.append_assoc]
  have hupper := @takes_strip data p.upper hrows s
  rw [← hrow, hy] at hupper
  rw [hbytes, ← hbooks]
  exact (takes_header p s).bind <| hupper.bind <| .look fun pos => takes_lower p lower rfl _

/-! ### A decoder -/

theorem list_frameOf (picture : Pixels) :
    Bytes.list (frameOf picture) = (List.range frameBytes).map fun i => picture (i / pitch) (i % pitch) := by
  rw [frameOf, Bytes.list_ofList]

/-- A frame is given by what it looks like. -/
theorem frame_eq {frame : ByteArray} {picture : Pixels} (hframe : frame.size = frameBytes)
    (hpicture : ∀ row < Avi.frameHeight, ∀ k < pitch, pixels frame row k = picture row k) : frame = frameOf picture := by
  apply Bytes.list_inj
  rw [list_frameOf]
  refine List.ext_getElem (by rw [List.length_map, List.length_range]; exact hframe) fun i hi _ => ?_
  have hrow : i / pitch < Avi.frameHeight := Nat.div_lt_of_lt_mul (Nat.lt_of_lt_of_eq hi hframe)
  have hi' := hpicture (i / pitch) hrow (i % pitch) (Nat.mod_lt i (by decide))
  rw [pixels, Nat.div_add_mod', Bytes.at0_eq, List.getElem?_eq_getElem hi] at hi'
  rw [List.getElem_map, List.getElem_range]
  exact hi'

/-- A decoder that reads a picture shows it on top of the picture before it, and keeps the books of both strips. -/
theorem decode_picture (p : PictureCode) (c : Cinepak) (hframe : c.frame.size = frameBytes) :
    decode c (Bytes.ofList p.bytes) =
      .ok { upper := p.upperBooks c, lower := p.lowerBooks c, frame := frameOf (p.picture c) } := by
  have hholds : Bytes.Holds (Bytes.ofList p.bytes) 0 p.bytes := by
    have h := Bytes.holds_list (Bytes.ofList p.bytes)
    rwa [Bytes.list_ofList] at h
  let s : State := ⟨0, c.upper, 0, 0, c.frame⟩
  let t : State := { p.upper.paint s with books := p.startBooks c }
  have hread : Cinepak.picture (Bytes.ofList p.bytes) c.lower s =
      .ok (p.upperBooks c) { p.lower.paint t with pos := 0 + p.bytes.length } :=
    takes_picture p c.lower (s := s) rfl hframe 0 hholds
  obtain ⟨hrow, -, hsize, hupper⟩ := p.upper.paint_spec (s := s) hframe
  obtain ⟨-, hbooks, hsize', hlower⟩ := p.lower.paint_spec (s := t) hsize
  have htop : t.y = 4 * p.upper.rows := hrow.trans (Nat.zero_add _)
  have hpicture : (p.lower.paint t).frame = frameOf (p.picture c) := by
    refine frame_eq hsize' fun row hr k hk => ?_
    rw [hlower row hr k hk, htop, PictureCode.picture, painted, painted, hupper row hr k hk]
  rw [decode, hread]
  simp only [hbooks, hpicture]
  rfl

/-! ### Room in a strip -/

theorem length_gathered_le (l : List (Bool × List UInt8)) :
    (gathered l).length ≤ 4 * l.length + (l.flatMap Prod.snd).length := by
  induction l using gathered.induct with
  | case1 => simp
  | case2 l h ih =>
    have hmask : (bigLong (maskOf (l.map Prod.fst))).length = 4 := rfl
    have hbytes : ((l.take 32).flatMap Prod.snd).length + ((l.drop 32).flatMap Prod.snd).length = (l.flatMap Prod.snd).length := by
      rw [← List.length_append, ← List.flatMap_append, List.take_append_drop]
    have hpos := List.length_pos_iff.mpr h
    rw [gathered_eq h, following, List.length_append, List.length_append, hmask]
    rw [List.length_drop] at ih
    omega

/-- Flags that come from items: an item that takes up a bounded number of flags and bytes takes up a bounded number of
bytes in all. -/
theorem length_gathered_flatMap_le {α : Type} (f : α → List (Bool × List UInt8)) {n : Nat}
    (hf : ∀ a, 4 * (f a).length + ((f a).flatMap Prod.snd).length ≤ n) (l : List α) :
    (gathered (l.flatMap f)).length ≤ n * l.length := by
  refine Nat.le_trans (length_gathered_le _) ?_
  induction l with
  | nil => simp
  | cons a l ih =>
    have ha := hf a
    rw [List.flatMap_cons, List.flatMap_append, List.length_append, List.length_append, List.length_cons, Nat.mul_succ]
    omega

theorem Image.length_content_le (image : Image) : image.content.length ≤ 12 * image.blocks.length := by
  cases image with
  | given picks =>
    have hflag (p : Pick) : 4 * [p.flag].length + ([p.flag].flatMap Prod.snd).length ≤ 12 := by
      cases p <;> simp [Pick.flag, Pick.bytes]
    have hbound := length_gathered_flatMap_le (fun p => [p.flag]) hflag picks
    rw [← List.map_eq_flatMap] at hbound
    rwa [Image.blocks, List.length_map]
  | changed blocks =>
    refine length_gathered_flatMap_le blockFlags (fun b => ?_) blocks
    rcases b with _ | _ | _ <;> simp [blockFlags, Pick.flag, Pick.bytes]
  | plain indices =>
    rw [Image.content, Image.blocks, List.length_map]
    omega

/-- However the blocks of a strip are painted, there is room for it; it may bring its books up to date as well. -/
theorem length_chunkList_lt {updates : List Update} {image : Image} (hblocks : image.blocks.length ≤ 4000)
    (hupdates : (updates.flatMap fun u => chunkBytes u.kind u.content).length ≤ 17000) :
    (chunkList updates image).length + 12 < 2 ^ 16 := by
  have himage := image.length_content_le
  rw [chunkList, List.length_append, length_chunkBytes]
  omega

/-! ### A picture -/

/-- A strip in one colour. -/
def plainStrip : StripCode where
  kind := 0x1000
  top := 0
  left := 0
  right := 320
  rows := 25
  updates := [.full .v1 [⟨200, 210, 220, 230, 90, 150⟩] (by decide), .full .v4 [⟨16, 32, 48, 64, 128, 128⟩] (by decide)]
  image := .plain (List.replicate 2000 0)
  complete := by simp only [Image.blocks, rowBlocks, List.length_map, List.length_replicate]
  fits := length_chunkList_lt (by simp only [Image.blocks, List.length_map, List.length_replicate]; decide) (by decide)

/-- A strip that only changes its first block. -/
def changedStrip : StripCode where
  kind := 0x1100
  top := 0
  left := 0
  right := 320
  rows := 25
  updates := []
  image := .changed (some (.four 1 0 0 1) :: List.replicate 1999 none)
  complete := by simp only [Image.blocks, rowBlocks, List.length_cons, List.length_replicate]
  fits := length_chunkList_lt (by simp only [Image.blocks, List.length_cons, List.length_replicate]; decide) (by decide)

def plainPicture : PictureCode := ⟨0, 0, 0, 0, plainStrip, changedStrip, rfl⟩

theorem decode_picture_plainPicture :
    ({} : Cinepak).frame.size = frameBytes ∧ decode {} (Bytes.ofList plainPicture.bytes) =
      .ok { upper := plainPicture.upperBooks {}, lower := plainPicture.lowerBooks {}, frame := frameOf (plainPicture.picture {}) } :=
  ⟨size_frame_new, decode_picture plainPicture {} size_frame_new⟩

end Adventure.Cinepak
