import Adventure.Proofs.Bytes.Fields
import Adventure.Proofs.Within
import Adventure.Resource.InterfaceSprites

/-! The sprites of the interface, taken from their buffer without loss. A sprite tells its own size in front. A buffer is
taken apart if it starts with as many complete sprites as the interface has, and these sprites put together are that start
of it; otherwise the first sprite that is not complete is reported. -/

namespace Adventure

namespace InterfaceSprites

open Bytes (Holds)

/-- A complete sprite: its width and its height, each less one, and its pixels. -/
def IsSprite (b : ByteArray) : Prop :=
  ∃ (w h : UInt16) (pixels : List UInt8), Bytes.list b = Bytes.word w ++ Bytes.word h ++ pixels ∧
    pixels.length = (w.toNat + 1) * (h.toNat + 1)

/-- The buffer starts with these sprites, one behind the other. -/
def StartsWith (data : ByteArray) (l : List ByteArray) : Prop :=
  Holds data 0 (l.flatMap Bytes.list) ∧ ∀ b ∈ l, IsSprite b

/-- This is the first sprite of the buffer that is not complete. -/
def BreaksAt (data : ByteArray) (k : Nat) : Prop :=
  (∃ l, l.length = k ∧ StartsWith data l) ∧ ¬∃ l, l.length = k + 1 ∧ StartsWith data l

/-- All sprites, in the order in which they stand in the file. -/
def sprites (s : InterfaceSprites) : List ByteArray :=
  s.bagActions ++ (s.lifeBar.flatten ++ (s.objectBlink ++ (s.weaponIcons ++ (s.ammoIcons.flatten ++
    (s.swordIcon.toList ++ ([s.iconBackground] ++ ([s.lifeBarImage] ++ s.weaponBlink)))))))

/-- The number of all sprites. -/
def count (demo : Bool) : Nat := if demo then 171 else 182

/-- How many sprites there are of each kind. -/
structure Shaped (demo : Bool) (s : InterfaceSprites) : Prop where
  bagActions : s.bagActions.length = 3
  lifeBar : s.lifeBar.length = 11 ∧ ∀ r ∈ s.lifeBar, r.length = 12
  objectBlink : s.objectBlink.length = 10
  weaponIcons : s.weaponIcons.length = 14
  ammoIcons : s.ammoIcons.length = 2 ∧ ∀ r ∈ s.ammoIcons, r.length = 5
  swordIcon : s.swordIcon.isSome = !demo
  weaponBlink : s.weaponBlink.length = if demo then 0 else 10

variable {data b : ByteArray} {pos n k : Nat} {l l' : List ByteArray}

/-! ### The next sprite -/

/-- The size that the sprite at a place tells. -/
def sizeAt (data : ByteArray) (pos : Nat) : Nat := Sprite.size (data.extract pos (pos + 4))

theorem sizeAt_eq {w h : UInt16} (hhead : Holds data pos (Bytes.word w ++ Bytes.word h)) :
    sizeAt data pos = 4 + (w.toNat + 1) * (h.toNat + 1) := by
  have hlist : Bytes.list (data.extract pos (pos + 4)) = Bytes.word w ++ Bytes.word h := hhead.extract
  have hown := Bytes.holds_list (data.extract pos (pos + 4))
  rw [hlist] at hown
  have hwidth : Bytes.le16? (data.extract pos (pos + 4)) 0 = some w := hown.left.le16
  have hheight : Bytes.le16? (data.extract pos (pos + 4)) 2 = some h := hown.right.le16
  rw [sizeAt, Sprite.size, Sprite.width, Sprite.height, hwidth, hheight]
  rfl

/-- A complete sprite is as long as it tells. -/
theorem eq_extract (hb : IsSprite b) (hholds : Holds data pos (Bytes.list b)) :
    b = data.extract pos (pos + sizeAt data pos) ∧ pos + sizeAt data pos ≤ data.size := by
  obtain ⟨w, h, pixels, hlist, hpixels⟩ := hb
  have hsize : sizeAt data pos = (Bytes.list b).length := by
    rw [hlist] at hholds
    rw [sizeAt_eq hholds.left, hlist, List.length_append, hpixels]
    rfl
  have hne : Bytes.list b ≠ [] := by
    rw [hlist]
    exact List.cons_ne_nil _ _
  rw [hsize]
  exact ⟨Bytes.list_inj hholds.extract.symm, hholds.le_size hne⟩

/-- As many bytes as the next sprite tells are a complete sprite. -/
theorem isSprite_extract (hfits : pos + sizeAt data pos ≤ data.size) :
    IsSprite (data.extract pos (pos + sizeAt data pos)) ∧
      Holds data pos (Bytes.list (data.extract pos (pos + sizeAt data pos))) := by
  have hlist : Bytes.list (data.extract pos (pos + sizeAt data pos)) = ((Bytes.list data).drop pos).take (sizeAt data pos) := by
    simp [Bytes.list, List.extract_eq_take_drop]
  have hlength : sizeAt data pos ≤ ((Bytes.list data).drop pos).length := by
    rw [List.length_drop, Bytes.length_list]
    omega
  refine ⟨?_, by rw [hlist]; exact List.take_prefix _ _⟩
  have hfour : 4 ≤ sizeAt data pos := Nat.le_add_right _ _
  -- the four bytes in front are a width and a height
  match hrest : (Bytes.list data).drop pos with
  | [] | [_] | [_, _] | [_, _, _] =>
    rw [hrest] at hlength
    simp only [List.length_cons, List.length_nil] at hlength
    omega
  | b₁ :: b₂ :: b₃ :: b₄ :: rest =>
    obtain ⟨w, hw, -⟩ := Bytes.exists_word b₁ b₂
    obtain ⟨h, hh, -⟩ := Bytes.exists_word b₃ b₄
    have hsplit : (Bytes.list data).drop pos = Bytes.word w ++ Bytes.word h ++ rest := by
      rw [hrest, hw, hh]
      rfl
    have hsize := sizeAt_eq (show Holds data pos (Bytes.word w ++ Bytes.word h) from ⟨rest, hsplit.symm⟩)
    refine ⟨w, h, rest.take ((w.toNat + 1) * (h.toNat + 1)), ?_, ?_⟩
    · rw [hlist, hsplit, hsize, show 4 = (Bytes.word w ++ Bytes.word h).length from rfl]
      exact List.take_length_add_append _
    · rw [hsplit, hsize, List.length_append] at hlength
      exact List.length_take_of_le (Nat.le_of_add_le_add_left hlength)

/-! ### Sprites in a row -/

theorem startsWith_nil (data : ByteArray) : StartsWith data [] :=
  ⟨List.nil_prefix, fun _ hb => absurd hb List.not_mem_nil⟩

theorem startsWith_append : StartsWith data (l ++ l') ↔
    StartsWith data l ∧ Holds data (l.flatMap Bytes.list).length (l'.flatMap Bytes.list) ∧ ∀ b ∈ l', IsSprite b := by
  unfold StartsWith
  rw [List.flatMap_append, Bytes.Holds.append_iff, Nat.zero_add, List.forall_mem_append]
  exact and_and_and_comm

theorem StartsWith.take (h : StartsWith data l) (n : Nat) : StartsWith data (l.take n) := by
  rw [← List.take_append_drop n l] at h
  exact (startsWith_append.mp h).1

/-- From a place on there is only one way to take so many sprites. -/
theorem eq_of_holds (hl : ∀ b ∈ l, IsSprite b) (hl' : ∀ b ∈ l', IsSprite b) (hlength : l.length = l'.length)
    (h : Holds data pos (l.flatMap Bytes.list)) (h' : Holds data pos (l'.flatMap Bytes.list)) : l = l' := by
  induction l generalizing l' pos with
  | nil => exact (List.length_eq_zero_iff.mp hlength.symm).symm
  | cons b l ih =>
    obtain _ | ⟨b', l'⟩ := l'
    · cases hlength
    rw [List.flatMap_cons] at h h'
    rw [List.forall_mem_cons] at hl hl'
    obtain rfl : b = b' := (eq_extract hl.1 h.left).1.trans (eq_extract hl'.1 h'.left).1.symm
    rw [ih hl.2 hl'.2 (Nat.succ.inj hlength) h.right h'.right]

theorem StartsWith.unique (h : StartsWith data l) (h' : StartsWith data l') (hlength : l.length = l'.length) : l = l' :=
  eq_of_holds h.2 h'.2 hlength h.1 h'.1

/-- A buffer cannot both start with so many sprites and break before. -/
theorem BreaksAt.length_le (h : BreaksAt data k) (hl : StartsWith data l) : l.length ≤ k := by
  refine Nat.le_of_not_lt fun hk => ?_
  exact h.2 ⟨l.take (k + 1), List.length_take_of_le hk, hl.take _⟩

/-! ### Taking sprites -/

variable {α β : Type}

/-- The place behind these sprites. -/
def behind (data : ByteArray) (l : List ByteArray) : Splitter := ⟨data, (l.flatMap Bytes.list).length, l.length⟩

/-- What comes of taking `n` sprites behind others: the sprites, of which the value says `P`, or the error of the first one
that is not complete. -/
inductive Taken (data : ByteArray) (before : List ByteArray) (n : Nat) (P : α → List ByteArray → Prop) :
    EStateM.Result ResourceError Splitter α → Prop
  | all {a : α} {l : List ByteArray} : l.length = n → StartsWith data (before ++ l) → P a l →
      Taken data before n P (.ok a (behind data (before ++ l)))
  | breaks {i : Nat} {s : Splitter} : i < n → BreaksAt data (before.length + i) →
      Taken data before n P (.error (.interfaceSprite (before.length + i)) s)

/-- Wherever it stands, the step takes `n` sprites. -/
def Splits (m : M α) (n : Nat) (P : α → List ByteArray → Prop) : Prop :=
  ∀ data before, StartsWith data before → Taken data before n P (m (behind data before))

namespace Splits

variable {m : M α} {f : α → M β} {P : α → List ByteArray → Prop} {Q : β → List ByteArray → Prop} {n₁ n₂ : Nat}

theorem value {a : α} (h : P a []) : Splits (pure a) 0 P := by
  intro data before hbefore
  have hall : Taken data before 0 P (.ok a (behind data (before ++ []))) := .all rfl (by rwa [List.append_nil]) h
  rwa [List.append_nil] at hall

theorem bind (hm : Splits m n₁ P) (hf : ∀ a l, l.length = n₁ → P a l → Splits (f a) n₂ fun b l' => Q b (l ++ l')) :
    Splits (m >>= f) (n₁ + n₂) Q := by
  intro data before hbefore
  have hfirst := hm data before hbefore
  simp only [Bind.bind, EStateM.bind]
  generalize m (behind data before) = r at hfirst ⊢
  cases hfirst with
  | breaks hi hbreaks => exact .breaks (Nat.lt_add_right _ hi) hbreaks
  | @all a l hl hstarts ha =>
    have hrest := hf a l hl ha data _ hstarts
    dsimp only
    generalize f a (behind data (before ++ l)) = r at hrest ⊢
    cases hrest with
    | all hl' hstarts' hb =>
      rw [List.append_assoc] at hstarts' ⊢
      exact .all (by rw [List.length_append, hl, hl']) hstarts' hb
    | @breaks i s hi hbreaks =>
      have hindex : (before ++ l).length + i = before.length + (n₁ + i) := by
        rw [List.length_append, hl, Nat.add_assoc]
      rw [hindex] at hbreaks ⊢
      exact .breaks (Nat.add_lt_add_left hi _) hbreaks

end Splits

/-- The next sprite is as long as it tells, and must end inside of the buffer. -/
theorem next_apply (data : ByteArray) (pos index : Nat) : next ⟨data, pos, index⟩ =
    if data.size < pos + sizeAt data pos then .error (.interfaceSprite index) ⟨data, pos, index⟩
    else .ok (data.extract pos (pos + sizeAt data pos)) ⟨data, pos + sizeAt data pos, index + 1⟩ := by
  refine (bind_of_ok (m := get) rfl).trans ?_
  by_cases hshort : data.size < pos + sizeAt data pos
  · rw [if_pos hshort]
    exact congrFun (if_pos hshort) _
  · rw [if_neg hshort]
    exact congrFun (if_neg hshort) _

theorem startsWith_concat : StartsWith data (l ++ [b]) ↔
    StartsWith data l ∧ Holds data (l.flatMap Bytes.list).length (Bytes.list b) ∧ IsSprite b := by
  rw [startsWith_append, List.flatMap_singleton, List.forall_mem_singleton]

theorem behind_concat (data : ByteArray) (l : List ByteArray) (b : ByteArray) :
    behind data (l ++ [b]) = ⟨data, (l.flatMap Bytes.list).length + b.size, l.length + 1⟩ := by
  rw [behind, List.flatMap_append, List.flatMap_singleton, List.length_append, List.length_append, Bytes.length_list]
  rfl

theorem splits_next : Splits next 1 fun b l => l = [b] := by
  intro data before hbefore
  rw [behind, next_apply]
  split
  · rename_i hshort
    refine .breaks Nat.zero_lt_one ⟨⟨before, rfl, hbefore⟩, ?_⟩
    rintro ⟨l, hl, hstarts⟩
    -- the sprites in front of the last one would be those taken already
    obtain rfl | ⟨front, b, rfl⟩ := List.eq_nil_or_concat l
    · cases hl
    rw [List.concat_eq_append] at hl hstarts
    obtain ⟨hfront, hholds, hb⟩ := startsWith_concat.mp hstarts
    rw [List.length_append] at hl
    obtain rfl : front = before := hfront.unique hbefore (Nat.succ.inj hl)
    exact Nat.not_lt.mpr (eq_extract hb hholds).2 hshort
  · rename_i hfits
    obtain ⟨hsprite, hholds⟩ := isSprite_extract (Nat.le_of_not_lt hfits)
    generalize hb : data.extract _ _ = b at hsprite hholds ⊢
    have hsize : b.size = sizeAt data (before.flatMap Bytes.list).length := by
      rw [← hb, ByteArray.size_extract, Nat.min_eq_left (Nat.le_of_not_lt hfits), Nat.add_sub_cancel_left]
    rw [← hsize, ← behind_concat]
    exact .all rfl (startsWith_concat.mpr ⟨hbefore, hholds, hsprite⟩) rfl

theorem splits_take (n : Nat) : Splits (take n) n fun bs l => l = bs := by
  induction n with
  | zero => exact .value rfl
  | succ n ih =>
    have h : Splits (take (n + 1)) (1 + (n + 0)) fun bs l => l = bs :=
      splits_next.bind fun b _ _ hb => ih.bind fun bs _ _ hbs => .value (by rw [hb, hbs, List.append_nil]; rfl)
    rwa [show 1 + (n + 0) = n + 1 from Nat.add_comm 1 n] at h

theorem splits_takeRows (n rows : Nat) : Splits (takeRows n rows) (rows * n) fun rs l =>
    l = rs.flatten ∧ rs.length = rows ∧ ∀ r ∈ rs, r.length = n := by
  induction rows with
  | zero =>
    rw [Nat.zero_mul]
    exact .value ⟨rfl, rfl, fun _ hr => absurd hr List.not_mem_nil⟩
  | succ rows ih =>
    have h : Splits (takeRows n (rows + 1)) (n + (rows * n + 0)) fun rs l =>
        l = rs.flatten ∧ rs.length = rows + 1 ∧ ∀ r ∈ rs, r.length = n := by
      refine (splits_take n).bind fun r l hl hr => ih.bind fun rs _ _ hrs => .value ?_
      obtain ⟨rfl, hlength, heach⟩ := hrs
      subst hr
      refine ⟨by rw [List.append_nil]; rfl, by rw [List.length_cons, hlength], ?_⟩
      exact List.forall_mem_cons.mpr ⟨hl, heach⟩
    rwa [show n + (rows * n + 0) = (rows + 1) * n by rw [Nat.succ_mul, Nat.add_comm n, Nat.add_zero]] at h

theorem splits_sword (demo : Bool) : Splits (if demo then pure none else some <$> next) (if demo then 0 else 1)
    fun o l => l = o.toList ∧ o.isSome = !demo := by
  cases demo with
  | true => exact .value ⟨rfl, rfl⟩
  | false =>
    have h : Splits (next >>= fun b => pure (some b)) (1 + 0) fun o l => l = o.toList ∧ o.isSome = !false :=
      splits_next.bind fun b _ _ hb => .value ⟨by rw [hb]; rfl, rfl⟩
    rwa [bind_pure_comp] at h

theorem splits_weaponBlink (demo : Bool) : Splits (if demo then pure [] else take 10) (if demo then 0 else 10)
    fun bs l => l = bs := by
  cases demo with
  | true => exact .value rfl
  | false => exact splits_take 10

/-- All parts in a row, of which some are nothing in the demo. -/
theorem split_eq (demo : Bool) : split demo =
    take 3 >>= fun bagActions => takeRows 12 11 >>= fun lifeBar => take 10 >>= fun objectBlink =>
    take 14 >>= fun weaponIcons => takeRows 5 2 >>= fun ammoIcons =>
    (if demo then pure none else some <$> next) >>= fun swordIcon =>
    next >>= fun iconBackground => next >>= fun lifeBarImage =>
    (if demo then pure [] else take 10) >>= fun weaponBlink =>
    pure ⟨bagActions, lifeBar, objectBlink, weaponIcons, ammoIcons, swordIcon, iconBackground, lifeBarImage,
      weaponBlink⟩ := by
  cases demo <;> rfl

theorem splits_split (demo : Bool) : Splits (split demo) (count demo) fun s l => l = s.sprites ∧ s.Shaped demo := by
  have hcount : 3 + (11 * 12 + (10 + (14 + (2 * 5 + ((if demo then 0 else 1) + (1 + (1 + ((if demo then 0 else 10) + 0)))))))) =
      count demo := by cases demo <;> rfl
  rw [← hcount, split_eq]
  refine (splits_take 3).bind fun bagActions _ hbag₃ hbag => ?_
  refine (splits_takeRows 12 11).bind fun lifeBar _ _ hbar => ?_
  refine (splits_take 10).bind fun objectBlink _ hobject₁₀ hobject => ?_
  refine (splits_take 14).bind fun weaponIcons _ hweapon₁₄ hweapon => ?_
  refine (splits_takeRows 5 2).bind fun ammoIcons _ _ hammo => ?_
  refine (splits_sword demo).bind fun swordIcon _ _ hsword => ?_
  refine splits_next.bind fun iconBackground _ _ hicon => ?_
  refine splits_next.bind fun lifeBarImage _ _ himage => ?_
  refine (splits_weaponBlink demo).bind fun weaponBlink _ hblinks hblink => .value ⟨?_, ?_⟩
  · rw [hbag, hbar.1, hobject, hweapon, hammo.1, hsword.1, hicon, himage, hblink, List.append_nil]
    rfl
  · exact ⟨hbag ▸ hbag₃, hbar.2, hobject ▸ hobject₁₀, hweapon ▸ hweapon₁₄, hammo.2, hsword.2, hblink ▸ hblinks⟩

/-! ### The whole buffer -/

/-- What comes of a whole buffer. -/
theorem taken_split (data : ByteArray) (demo : Bool) :
    Taken data [] (count demo) (fun s l => l = s.sprites ∧ s.Shaped demo) (split demo { data }) :=
  splits_split demo data [] (startsWith_nil data)

theorem of_ofDecoded_ok {s : InterfaceSprites} {demo : Bool} (h : ofDecoded data demo = .ok s) :
    s.sprites.length = count demo ∧ StartsWith data s.sprites ∧ s.Shaped demo := by
  have htaken := taken_split data demo
  unfold ofDecoded at h
  generalize split demo { data } = r at htaken h
  cases htaken with
  | all hl hstarts hs =>
    cases h
    obtain ⟨rfl, hshaped⟩ := hs
    exact ⟨hl, hstarts, hshaped⟩
  | breaks => cases h

theorem of_ofDecoded_error {e : ResourceError} {demo : Bool} (h : ofDecoded data demo = .error e) :
    ∃ k < count demo, e = .interfaceSprite k ∧ BreaksAt data k := by
  have htaken := taken_split data demo
  unfold ofDecoded at h
  generalize split demo { data } = r at htaken h
  cases htaken with
  | all => cases h
  | breaks hi hbreaks =>
    cases h
    rw [List.length_nil, Nat.zero_add] at hbreaks ⊢
    exact ⟨_, hi, rfl, hbreaks⟩

theorem exists_ofDecoded {demo : Bool} (hl : l.length = count demo) (hstarts : StartsWith data l) :
    ∃ s, ofDecoded data demo = .ok s := by
  cases h : ofDecoded data demo with
  | ok s => exact ⟨s, rfl⟩
  | error e =>
    obtain ⟨k, hk, -, hbreaks⟩ := of_ofDecoded_error h
    exact absurd (hbreaks.length_le hstarts) (Nat.not_le.mpr (hl ▸ hk))

theorem decode_eq {file : ByteArray} (hfile : Lzss.decode (file.extract 2 file.size) = .ok data) (demo : Bool) :
    decode file demo = ofDecoded data demo := by
  simp only [decode, hfile, ResourceError.ofCodec, bind, Except.bind]

/-! ### Sprites of one point -/

/-- A sprite of one point. -/
def point : ByteArray := Bytes.ofList [0, 0, 0, 0, 0]

theorem isSprite_point : IsSprite point := ⟨0, 0, [0], Bytes.list_ofList _, rfl⟩

/-- Zeros are such sprites. -/
theorem startsWith_points (hdata : Bytes.list data = List.replicate (5 * n + k) 0) :
    StartsWith data (List.replicate n point) := by
  have hpoints : (List.replicate n point).flatMap Bytes.list = List.replicate (5 * n) 0 := by
    have hpoint : Bytes.list point = List.replicate 5 0 := Bytes.list_ofList _
    rw [List.flatMap_replicate, hpoint, List.flatten_replicate_replicate, Nat.mul_comm]
  refine ⟨?_, fun b hb => ?_⟩
  · rw [Holds, hpoints, hdata, ← List.replicate_append_replicate]
    exact List.prefix_append _ _
  · rw [List.eq_of_mem_replicate hb]
    exact isSprite_point

/-- A sprite has at least five bytes. -/
theorem IsSprite.le_length (hb : IsSprite b) : 5 ≤ (Bytes.list b).length := by
  obtain ⟨w, h, pixels, hlist, hpixels⟩ := hb
  have hpoint : 0 < pixels.length := hpixels ▸ Nat.mul_pos (Nat.succ_pos _) (Nat.succ_pos _)
  rw [hlist, List.length_append]
  exact Nat.add_le_add_left hpoint 4

theorem StartsWith.le_size (h : StartsWith data l) : 5 * l.length ≤ data.size :=
  Nat.le_trans (Bytes.mul_length_le_flatMap fun b hb => (h.2 b hb).le_length) h.1.length_le

/-- A file that is unpacked to so many zeros. -/
def zeros (n : UInt32) : ByteArray := Bytes.ofList ([0, 0] ++ (Bytes.long n ++ (Bytes.long 0 ++ [0, 0, 0])))

theorem unpack_zeros {n : UInt32} (hn : n.toNat ≤ 880) :
    Lzss.decode ((zeros n).extract 2 (zeros n).size) = .ok (Bytes.pushN ByteArray.empty 0 n.toNat) := by
  have hpacked : (zeros n).extract 2 (zeros n).size = Bytes.ofList (Bytes.long n ++ (Bytes.long 0 ++ [0, 0, 0])) := by
    have hown := Bytes.holds_list (zeros n)
    rw [zeros, Bytes.list_ofList] at hown
    rw [← Bytes.list_eq_iff, zeros, Bytes.size_ofList]
    exact hown.right.extract
  have hown := Bytes.holds_list (Bytes.ofList (Bytes.long n ++ (Bytes.long 0 ++ [0, 0, 0])))
  rw [Bytes.list_ofList] at hown
  have hunits : Bytes.le32? (Bytes.ofList (Bytes.long n ++ (Bytes.long 0 ++ [0, 0, 0]))) 4 = some 0 := hown.right.left.le32
  have hroom : ¬min ((Bytes.ofList (Bytes.long n ++ (Bytes.long 0 ++ [0, 0, 0]))).size * Lzss.maxRatio) maxDecodedSize <
      n.toNat := by
    have hlimit : min (11 * Lzss.maxRatio) maxDecodedSize = 880 := by decide
    rw [Bytes.size_ofList]
    change ¬min (11 * Lzss.maxRatio) maxDecodedSize < n.toNat
    rw [hlimit]
    exact Nat.not_lt.mpr hn
  rw [hpacked, Lzss.decode, hown.left.le32, hunits]
  dsimp only
  rw [if_neg hroom, Lzss.decodeBlocks]
  rfl

/-- The file is taken apart if its buffer starts with as many complete sprites as the interface has. All of them in the order
of the file are that start of the buffer, and there are as many of each kind as there should be. Otherwise the first sprite
that is not complete is reported. -/
theorem decode_lossless {file data : ByteArray} (demo : Bool) (hfile : Lzss.decode (file.extract 2 file.size) = .ok data) :
    ((∃ s, decode file demo = .ok s) ↔ ∃ l, l.length = count demo ∧ StartsWith data l) ∧
      (∀ s, decode file demo = .ok s → s.sprites.length = count demo ∧ StartsWith data s.sprites ∧ s.Shaped demo) ∧
      ∀ e, decode file demo = .error e → ∃ k < count demo, e = .interfaceSprite k ∧ BreaksAt data k := by
  rw [decode_eq hfile]
  refine ⟨⟨?_, ?_⟩, fun _ => of_ofDecoded_ok, fun _ => of_ofDecoded_error⟩
  · rintro ⟨s, hs⟩
    obtain ⟨hlength, hstarts, -⟩ := of_ofDecoded_ok hs
    exact ⟨s.sprites, hlength, hstarts⟩
  · rintro ⟨l, hl, hstarts⟩
    exact exists_ofDecoded hl hstarts

/-- A buffer of 855 zeros is enough for the demo, and otherwise lacks the sprite behind its 171 ones. -/
theorem decode_lossless_zeros :
    (∃ s, decode (zeros 855) true = .ok s ∧ s.sprites = List.replicate 171 point) ∧
      decode (zeros 855) false = .error (.interfaceSprite 171) := by
  have hfile := unpack_zeros (n := 855) (by decide)
  have hpoints := startsWith_points (n := 171) (k := 0) (Bytes.list_pushN ByteArray.empty 0 855)
  have hsize : (Bytes.pushN ByteArray.empty 0 855).size = 855 := by
    rw [← Bytes.length_list, Bytes.list_pushN, List.length_append, List.length_replicate]
    rfl
  constructor
  · obtain ⟨hiff, hok, -⟩ := decode_lossless true hfile
    obtain ⟨s, hs⟩ := hiff.mpr ⟨_, List.length_replicate, hpoints⟩
    obtain ⟨hlength, hstarts, -⟩ := hok s hs
    exact ⟨s, hs, hstarts.unique hpoints (by rw [hlength, List.length_replicate]; rfl)⟩
  · obtain ⟨-, hok, herror⟩ := decode_lossless false hfile
    cases h : decode (zeros 855) false with
    | ok s =>
      obtain ⟨hlength, hstarts, -⟩ := hok s h
      have hroom : 5 * s.sprites.length ≤ 855 := hsize ▸ hstarts.le_size
      rw [hlength] at hroom
      exact absurd hroom (by decide)
    | error e =>
      obtain ⟨k, hk, rfl, hbreaks⟩ := herror e h
      have hleast := hbreaks.length_le hpoints
      rw [List.length_replicate] at hleast
      obtain ⟨l, hl, hstarts⟩ := hbreaks.1
      have hroom : 5 * l.length ≤ 855 := hsize ▸ hstarts.le_size
      obtain rfl : k = 171 := by omega
      rfl

end InterfaceSprites

end Adventure
