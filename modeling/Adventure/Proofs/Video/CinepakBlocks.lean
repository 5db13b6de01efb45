import Adventure.Proofs.Video.CinepakPainting
import Adventure.Proofs.Video.CinepakReading

/-! Reading the blocks of a strip. Each of the three ways to write them is read to its end, and just then the strip
is full. In a strip whose blocks may keep what they show the flags of a block can lie in two masks; there what is
read before a mask and what is read behind it is one run. -/

namespace Adventure.Cinepak

variable {data : ByteArray} {yEnd : Nat}

/-! ### One block -/

/-- A block is painted by entries of the books, or kept. -/
def State.pick (s : State) (p : Option Pick) : State := s.step (p.map (Pick.block s.books))

theorem foldl_pick (s : State) (picks : List (Option Pick)) :
    picks.foldl State.pick s = (picks.map fun p => p.map (Pick.block s.books)).foldl State.step s := by
  induction picks generalizing s with
  | nil => rfl
  | cons p picks ih =>
    rw [List.foldl_cons, ih, State.pick, State.books_step]
    rfl

theorem paint_pos (s : State) (pos : Nat) (b : Block) : State.paint { s with pos } b = { s.paint b with pos } := rfl

theorem takes_blockV1 (i : UInt8) (s : State) :
    Takes data (blockV1 data) [i] s () (s.paint ((Pick.one i).block s.books)) := by
  refine (takes_byte i s).bind_nil (.still fun pos => ?_)
  rw [← paint_pos]
  exact (bind_of_ok rfl).trans (paintV1_eq (lookup s.books.v1 i) { s with pos })

theorem takes_blockV4 (a b c d : UInt8) (s : State) :
    Takes data (blockV4 data) [a, b, c, d] s () (s.paint ((Pick.four a b c d).block s.books)) := by
  refine (takes_byte a s).bind <| (takes_byte b s).bind <| (takes_byte c s).bind <| (takes_byte d s).bind_nil <|
    .still fun pos => ?_
  rw [← paint_pos]
  exact (bind_of_ok rfl).trans
    (paintV4_eq (lookup s.books.v4 a) (lookup s.books.v4 b) (lookup s.books.v4 c) (lookup s.books.v4 d) { s with pos })

theorem takes_nextBlock (s : State) : Takes data nextBlock [] s () s.next := by
  refine .still fun pos => ?_
  unfold State.next
  split
  · rename_i h
    exact congrArg (EStateM.Result.ok ()) (if_pos h)
  · rename_i h
    exact congrArg (EStateM.Result.ok ()) (if_neg h)

/-- A block of one vector, and what follows it. -/
theorem takes_one {α : Type} {m : M α} {l : List UInt8} {s t : State} {a : α} (i : UInt8)
    (hm : Takes data m l (s.pick (some (.one i))) a t) :
    Takes data (blockV1 data >>= fun _ => nextBlock >>= fun _ => m) (i :: l) s a t :=
  (takes_blockV1 i s).bind ((takes_nextBlock _).bind hm)

/-- A block of four vectors, and what follows it. -/
theorem takes_four {α : Type} {m : M α} {l : List UInt8} {s t : State} {e : α} (a b c d : UInt8)
    (hm : Takes data m l (s.pick (some (.four a b c d))) e t) :
    Takes data (blockV4 data >>= fun _ => nextBlock >>= fun _ => m) (a :: b :: c :: d :: l) s e t :=
  (takes_blockV4 a b c d s).bind ((takes_nextBlock _).bind hm)

theorem takes_chosenBlock (p : Pick) (s : State) :
    Takes data (chosenBlock data p.isFour) p.bytes s (p.bytes.length : Int) (s.paint (p.block s.books)) := by
  cases p with
  | one i => exact (takes_blockV1 i s).bind_nil (.value (1 : Int) _)
  | four a b c d => exact (takes_blockV4 a b c d s).bind_nil (.value (4 : Int) _)

/-! ### The end of a strip -/

/-- So many blocks are left in the strip that ends above row `yEnd`. -/
def State.Left (s : State) (yEnd left : Nat) : Prop :=
  ∃ top n rows, s.At top n ∧ yEnd = top + 4 * rows ∧ n + left = rowBlocks * rows

/-- Only the place of the next block matters. -/
theorem State.Left.moved {s t : State} {n : Nat} (h : s.Left yEnd n) (hx : t.x = s.x) (hy : t.y = s.y) : t.Left yEnd n := by
  obtain ⟨top, k, rows, hat, hend, hsum⟩ := h
  exact ⟨top, k, rows, ⟨hx.trans hat.x, hy.trans hat.y⟩, hend, hsum⟩

theorem State.Left.pick {s : State} {n : Nat} (h : s.Left yEnd (n + 1)) (p : Option Pick) : (s.pick p).Left yEnd n := by
  obtain ⟨top, k, rows, hat, hend, hsum⟩ := h
  exact ⟨top, k + 1, rows, hat.step _, hend, by omega⟩

theorem State.Left.picks {s : State} {n : Nat} (picks : List (Option Pick)) (h : s.Left yEnd (picks.length + n)) :
    (picks.foldl State.pick s).Left yEnd n := by
  induction picks generalizing s with
  | nil => rwa [List.length_nil, Nat.zero_add] at h
  | cons p picks ih =>
    rw [List.length_cons, Nat.add_right_comm] at h
    exact ih (h.pick p)

theorem State.Left.above {s : State} {n : Nat} (h : s.Left yEnd n) : s.y < yEnd ↔ 0 < n := by
  obtain ⟨top, k, rows, hat, hend, hsum⟩ := h
  have hy := hat.y
  simp only [rowBlocks] at hy hsum
  omega

theorem takes_inStrip (yEnd : Nat) (s : State) : Takes data (inStrip yEnd) [] s (decide (s.y < yEnd)) s :=
  .still fun _ => rfl

section

variable {α : Type} {s t : State} {n : Nat} {f : Bool → M α} {l : List UInt8} {a : α}

theorem takes_above (hleft : s.Left yEnd n) (hf : Takes data (f (decide (0 < n))) l s a t) :
    Takes data (inStrip yEnd >>= f) l s a t := by
  have habove : decide (s.y < yEnd) = decide (0 < n) := decide_eq_decide.mpr hleft.above
  exact (takes_inStrip yEnd s).bind (habove ▸ hf)

/-- Some blocks are left. -/
theorem takes_go (hleft : s.Left yEnd n) (hn : 0 < n) (hf : Takes data (f true) l s a t) :
    Takes data (inStrip yEnd >>= f) l s a t := takes_above hleft (by rwa [decide_eq_true hn])

/-- No block is left. -/
theorem takes_stop (hleft : s.Left yEnd 0) (hf : Takes data (f false) l s a t) :
    Takes data (inStrip yEnd >>= f) l s a t := takes_above hleft hf

end

/-! ### Blocks of one vector -/

theorem takes_plainBlocks {fuel : Nat} {size : Int} (indices : List UInt8) (hsize : size = indices.length)
    (hfuel : indices.length < fuel) {s : State} (hleft : s.Left yEnd indices.length) :
    Takes data (plainBlocks data yEnd fuel size) indices s 0
      ((indices.map fun i => some (Pick.one i)).foldl State.pick s) := by
  induction fuel generalizing size indices s with
  | zero => cases hfuel
  | succ fuel ih =>
    cases indices with
    | nil =>
      obtain rfl : size = 0 := hsize
      exact takes_stop hleft (.value 0 s)
    | cons i indices =>
      rw [List.length_cons] at hsize hfuel hleft
      refine takes_go hleft (Nat.succ_pos _) ?_
      rw [if_neg (by simp; omega)]
      exact takes_one i (ih indices (by omega) (by omega) (hleft.pick _))

/-! ### Blocks that are all given -/

/-- The blocks of a mask; what is left of the size is theirs that follow. -/
theorem takes_maskedBlocks {mask : UInt32} {n more : Nat} (hn : n ≤ 32) {size rest : Int} (picks : List Pick)
    (hlen : picks.length ≤ n) (hmore : picks.length = n ∨ more = 0) (hmask : Shows mask (32 - n) (picks.map Pick.isFour))
    (hsize : size = (picks.flatMap Pick.bytes).length + rest) {s : State} (hleft : s.Left yEnd (picks.length + more)) :
    Takes data (maskedBlocks data yEnd mask size n) (picks.flatMap Pick.bytes) s rest
      ((picks.map some).foldl State.pick s) := by
  induction n generalizing size picks s with
  | zero =>
    obtain rfl : picks = [] := List.eq_nil_of_length_eq_zero (Nat.le_zero.mp hlen)
    obtain rfl : size = rest := by simpa using hsize
    exact .value size s
  | succ n ih =>
    cases picks with
    | nil =>
      obtain rfl : size = rest := by simpa using hsize
      obtain rfl : more = 0 := hmore.resolve_left (by simp)
      exact takes_stop hleft (.value size s)
    | cons p picks =>
      have hbit : maskBit mask (32 - (n + 1)) = p.isFour := hmask.head (by omega)
      have htail := hmask.tail
      rw [show 32 - (n + 1) + 1 = 32 - n by omega] at htail
      rw [List.length_cons] at hlen hmore hleft
      rw [show picks.length + 1 + more = picks.length + more + 1 by omega] at hleft
      rw [List.flatMap_cons, List.length_append] at hsize
      have hsize' : size - p.bytes.length = (picks.flatMap Pick.bytes).length + rest := by omega
      have hrest := ih (by omega) picks (by omega) (by omega) htail hsize' (hleft.pick (some p))
      refine takes_go hleft (Nat.succ_pos _) ?_
      simp only [hbit]
      cases p with
      | one i => exact takes_one i hrest
      | four a b c d => exact takes_four a b c d hrest

theorem gathered_picks {picks : List Pick} (h : picks ≠ []) :
    gathered (picks.map Pick.flag) =
      bigLong (maskOf (picks.map Pick.isFour)) ++ ((picks.take 32).flatMap Pick.bytes ++ gathered ((picks.drop 32).map Pick.flag)) := by
  rw [gathered_eq (by simpa using h), following, ← List.map_drop, ← List.map_take, List.map_map, List.flatMap_map]
  rfl

theorem takes_intraBlocks {fuel : Nat} {size : Int} (picks : List Pick)
    (hsize : size = (gathered (picks.map Pick.flag)).length) (hfuel : (gathered (picks.map Pick.flag)).length < fuel)
    {s : State} (hleft : s.Left yEnd picks.length) :
    Takes data (intraBlocks data yEnd fuel size) (gathered (picks.map Pick.flag)) s 0 ((picks.map some).foldl State.pick s) := by
  induction fuel generalizing size picks s with
  | zero => cases hfuel
  | succ fuel ih =>
    by_cases hnil : picks = []
    · subst hnil
      obtain rfl : size = 0 := by simpa using hsize
      exact .congr (takes_stop hleft (.value 0 s)) gathered_nil.symm
    · have hcons := gathered_picks hnil
      have hlen : (gathered (picks.map Pick.flag)).length =
          4 + (((picks.take 32).flatMap Pick.bytes).length + (gathered ((picks.drop 32).map Pick.flag)).length) := by
        rw [hcons, List.length_append, List.length_append]
        rfl
      have hmask : Shows (maskOf (picks.map Pick.isFour)) (32 - 32) ((picks.take 32).map Pick.isFour) := by
        rw [List.map_take]
        exact (shows_maskOf _).take (by omega)
      have hsum : (picks.take 32).length + (picks.drop 32).length = picks.length := by
        rw [← List.length_append, List.take_append_drop]
      have hmore : (picks.take 32).length = 32 ∨ (picks.drop 32).length = 0 := by
        rw [List.length_take, List.length_drop]
        omega
      have hfirst : Takes data (maskedBlocks data yEnd (maskOf (picks.map Pick.isFour)) (size - 4) 32)
          ((picks.take 32).flatMap Pick.bytes) s (gathered ((picks.drop 32).map Pick.flag)).length
          (((picks.take 32).map some).foldl State.pick s) :=
        takes_maskedBlocks (Nat.le_refl 32) (picks.take 32) (List.length_take_le 32 picks) hmore hmask (by omega) (hsum ▸ hleft)
      have hpicked : (((picks.take 32).map some).foldl State.pick s).Left yEnd (picks.drop 32).length :=
        State.Left.picks _ (by rw [List.length_map, hsum]; exact hleft)
      have hrest := ih (picks.drop 32) rfl (by omega) hpicked
      rw [← List.foldl_append, ← List.map_append, List.take_append_drop] at hrest
      rw [hcons]
      refine takes_go hleft (List.length_pos_iff.mpr hnil) ?_
      rw [if_neg (by simp; omega)]
      exact (takes_long _ s).bind (hfirst.bind hrest)

/-! ### Blocks that may be kept -/

/-- From a bit of a mask on some blocks are read to the end of the strip: those whose flags the mask shows, and those
behind it. -/
def Runs (data : ByteArray) (yEnd : Nat) (blocks : List (Option Pick)) (bit : Nat) : Prop :=
  ∀ ⦃mask : UInt32⦄ ⦃fuel outer : Nat⦄ ⦃size : Int⦄ ⦃s : State⦄,
    Shows mask bit ((blocks.flatMap blockFlags).map Prod.fst) → blocks.length < fuel →
    (following (32 - bit) (blocks.flatMap blockFlags)).length < outer →
    size = (following (32 - bit) (blocks.flatMap blockFlags)).length → s.Left yEnd blocks.length →
    Takes data (interMask data yEnd fuel mask bit size >>= interBlocks data yEnd outer)
      (following (32 - bit) (blocks.flatMap blockFlags)) s 0 (blocks.foldl State.pick s)

theorem length_le_flags (blocks : List (Option Pick)) : blocks.length ≤ (blocks.flatMap blockFlags).length :=
  Bytes.length_le_flatMap fun b _ => by cases b <;> exact List.cons_ne_nil _ _

theorem runs_nil (bit : Nat) : Runs data yEnd [] bit := by
  intro mask fuel outer size s _ hfuel houter hsize hleft
  simp only [List.flatMap_nil, following_nil, List.length_nil] at hfuel houter hsize hleft ⊢
  obtain ⟨fuel, rfl⟩ := Nat.exists_eq_add_one_of_ne_zero (Nat.ne_of_gt hfuel)
  obtain ⟨outer, rfl⟩ := Nat.exists_eq_add_one_of_ne_zero (Nat.ne_of_gt houter)
  subst hsize
  rw [interMask, bind_assoc]
  refine takes_stop hleft ?_
  rw [if_pos (by simp), pure_bind]
  exact takes_stop hleft (.value 0 s)

/-- Masks are read until no block is left. -/
theorem Runs.masks {blocks : List (Option Pick)} (h : Runs data yEnd blocks 0) {outer : Nat} {size : Int}
    (hsize : size = (gathered (blocks.flatMap blockFlags)).length)
    (houter : (gathered (blocks.flatMap blockFlags)).length < outer) {s : State} (hleft : s.Left yEnd blocks.length) :
    Takes data (interBlocks data yEnd outer size) (gathered (blocks.flatMap blockFlags)) s 0 (blocks.foldl State.pick s) := by
  obtain ⟨outer, rfl⟩ := Nat.exists_eq_add_one_of_ne_zero (Nat.ne_of_gt (Nat.zero_lt_of_lt houter))
  cases blocks with
  | nil =>
    obtain rfl : size = 0 := by simpa using hsize
    exact .congr (takes_stop hleft (.value 0 s)) gathered_nil.symm
  | cons b blocks =>
    have hflags := length_le_flags (b :: blocks)
    have hcons := gathered_eq (l := (b :: blocks).flatMap blockFlags) (List.ne_nil_of_length_pos (Nat.lt_of_lt_of_le (Nat.succ_pos _) hflags))
    have hbytes := length_le_gathered ((b :: blocks).flatMap blockFlags)
    have hlen : (gathered ((b :: blocks).flatMap blockFlags)).length =
        4 + (following (32 - 0) ((b :: blocks).flatMap blockFlags)).length := by
      rw [hcons, List.length_append]
      rfl
    rw [interBlocks, hcons]
    refine takes_go hleft (Nat.succ_pos _) ?_
    rw [if_neg (by simp; omega)]
    exact (takes_long _ s).bind (h (shows_maskOf _) (by omega) (by omega) (by omega) hleft)

/-- A mask that is used up is followed by the next one. -/
theorem Runs.refill {blocks : List (Option Pick)} (h : Runs data yEnd blocks 0) : Runs data yEnd blocks 32 := by
  intro mask fuel outer size s _ hfuel houter hsize hleft
  obtain ⟨fuel, rfl⟩ := Nat.exists_eq_add_one_of_ne_zero (Nat.ne_of_gt (Nat.zero_lt_of_lt hfuel))
  rw [interMask, bind_assoc]
  refine (takes_inStrip yEnd s).bind ?_
  rw [if_pos (Or.inl (Nat.le_refl 32)), pure_bind]
  exact h.masks hsize houter hleft

/-! The bytes behind the first flag of a block that is kept, of one that is painted, and of one that is painted
and whose other flag is the first one of the next mask. -/

theorem following_none (n : Nat) (blocks : List (Option Pick)) :
    following (n + 1) ((none :: blocks).flatMap blockFlags) = following n (blocks.flatMap blockFlags) := following_cons ..

theorem following_some (n : Nat) (p : Pick) (blocks : List (Option Pick)) :
    following (n + 2) ((some p :: blocks).flatMap blockFlags) = p.bytes ++ following n (blocks.flatMap blockFlags) :=
  (following_cons ..).trans (following_cons ..)

theorem following_some_last (p : Pick) (blocks : List (Option Pick)) :
    following 1 ((some p :: blocks).flatMap blockFlags) =
      bigLong (maskOf ((p.flag :: blocks.flatMap blockFlags).map Prod.fst)) ++
        (p.bytes ++ following (32 - 1) (blocks.flatMap blockFlags)) :=
  (following_cons ..).trans ((gathered_eq (List.cons_ne_nil p.flag _)).trans (congrArg _ (following_cons ..)))

/-- A block whose flags have been read is painted, and those behind it are read. -/
theorem Runs.chosen {blocks : List (Option Pick)} {bit : Nat} (h : Runs data yEnd blocks bit) (p : Pick) {mask : UInt32}
    {fuel outer : Nat} {size : Int} {s : State} (hmask : Shows mask bit ((blocks.flatMap blockFlags).map Prod.fst))
    (hfuel : blocks.length < fuel)
    (houter : (p.bytes ++ following (32 - bit) (blocks.flatMap blockFlags)).length < outer)
    (hsize : size = (p.bytes ++ following (32 - bit) (blocks.flatMap blockFlags)).length)
    (hleft : s.Left yEnd (blocks.length + 1)) :
    Takes data
      ((chosenBlock data p.isFour >>= fun n => nextBlock >>= fun _ => interMask data yEnd fuel mask bit (size - n)) >>=
        interBlocks data yEnd outer)
      (p.bytes ++ following (32 - bit) (blocks.flatMap blockFlags)) s 0 ((some p :: blocks).foldl State.pick s) := by
  rw [List.length_append] at houter hsize
  rw [bind_assoc]
  refine (takes_chosenBlock p s).bind ?_
  rw [bind_assoc]
  exact (takes_nextBlock _).bind (h hmask hfuel (by omega) (by omega) (hleft.pick (some p)))

theorem Runs.cons {blocks : List (Option Pick)} (h : ∀ bit ≤ 32, Runs data yEnd blocks bit) (b : Option Pick) {bit : Nat}
    (hbit : bit < 32) : Runs data yEnd (b :: blocks) bit := by
  intro mask fuel outer size s hmask hfuel houter hsize hleft
  obtain ⟨fuel, rfl⟩ := Nat.exists_eq_add_one_of_ne_zero (Nat.ne_of_gt (Nat.zero_lt_of_lt hfuel))
  rw [List.length_cons] at hfuel hleft
  rw [interMask, bind_assoc]
  refine takes_go hleft (Nat.succ_pos _) ?_
  rw [if_neg (by simp; omega)]
  cases b with
  | none =>
    have hclear : maskBit mask bit = false := hmask.head hbit
    have hrest : 32 - bit = 32 - (bit + 1) + 1 := by omega
    rw [hrest, following_none] at houter hsize ⊢
    rw [hclear, if_neg Bool.false_ne_true, bind_assoc]
    exact (takes_nextBlock s).bind (h (bit + 1) hbit hmask.tail (by omega) houter hsize (hleft.pick none))
  | some p =>
    have hset : maskBit mask bit = true := hmask.head hbit
    rw [hset, if_pos rfl]
    by_cases hlast : bit + 1 = 32
    · have hnext := shows_maskOf ((p.flag :: blocks.flatMap blockFlags).map Prod.fst)
      have hkind : maskBit (maskOf ((p.flag :: blocks.flatMap blockFlags).map Prod.fst)) 0 = p.isFour :=
        hnext.head (by omega)
      have hrest : 32 - bit = 1 := by omega
      have hlong (w : UInt32) : (bigLong w).length = 4 := rfl
      rw [hrest, following_some_last] at houter hsize ⊢
      rw [List.length_append, hlong] at houter hsize
      rw [if_pos hlast, bind_assoc]
      refine (takes_long _ s).bind ?_
      rw [hkind]
      exact (h 1 (by omega)).chosen p hnext.tail (by omega) (by omega) (by omega) hleft
    · have hkind : maskBit mask (bit + 1) = p.isFour := hmask.tail.head (by omega)
      have hrest : 32 - bit = 32 - (bit + 2) + 2 := by omega
      rw [hrest, following_some] at houter hsize ⊢
      rw [if_neg hlast, hkind]
      exact (h (bit + 2) (by omega)).chosen p hmask.tail.tail (by omega) houter hsize hleft

theorem runs (blocks : List (Option Pick)) : ∀ bit ≤ 32, Runs data yEnd blocks bit := by
  induction blocks with
  | nil => exact fun bit _ => runs_nil bit
  | cons b blocks ih =>
    intro bit hbit
    rcases Nat.lt_or_eq_of_le hbit with hlt | rfl
    · exact Runs.cons ih b hlt
    · exact (Runs.cons ih b (by omega)).refill

/-- The content of an image is read to its end, and paints its blocks. -/
theorem takes_image (image : Image) {s : State} (hleft : s.Left yEnd image.blocks.length) :
    Takes data (content data yEnd image.kind image.content.length) image.content s 0
      (image.blocks.foldl State.pick s) := by
  cases image with
  | given picks =>
    rw [Image.blocks, List.length_map] at hleft
    exact takes_intraBlocks picks rfl (Nat.lt_succ_self _) hleft
  | changed blocks => exact (runs blocks 0 (Nat.zero_le 32)).masks rfl (Nat.lt_succ_self _) hleft
  | plain indices =>
    rw [Image.blocks, List.length_map] at hleft
    exact takes_plainBlocks indices rfl (Nat.lt_succ_self _) hleft

end Adventure.Cinepak
