import Adventure.Proofs.Bytes.Words
import Adventure.Proofs.Sound.Parts
import Mathlib.Tactic.Ring

/-! Sounds at another rate. What is heard at a moment of a sound is known from the moment's number, however the
moments are divided among reads. A mono sound is heard at the new rate. In a stereo sound each of the two samples
of a moment moves the place on, and so the sides stay what they are only where nothing has to be resampled. -/

namespace Adventure

/-- Items in pairs; a last one that is alone is left out. -/
def paired {α : Type} : List α → List (α × α)
  | [] => []
  | [_] => []
  | a :: b :: l => (a, b) :: paired l

theorem getElem?_paired {α : Type} (l : List α) (i : Nat) :
    (paired l)[i]? = Option.map₂ Prod.mk l[2 * i]? l[2 * i + 1]? := by
  induction l using paired.induct generalizing i with
  | case1 => rfl
  | case2 a => simp [paired]
  | case3 a b l ih =>
    cases i with
    | zero => rfl
    | succ i => simpa [paired, Nat.mul_succ] using ih i

theorem length_paired {α : Type} (l : List α) : (paired l).length = l.length / 2 := by
  induction l using paired.induct with
  | case1 => simp [paired]
  | case2 a => simp [paired]
  | case3 a b l ih =>
    simp only [paired, List.length_cons, ih]
    omega

/-- The sum of what stands in a buffer and of a sound, kept in range. -/
def Stereo.plus (f : Stereo) (p : Int × Int) : Stereo where
  left := (max (-0x8000) (min 0x7FFF (f.left.toInt + p.1))).toInt16
  right := (max (-0x8000) (min 0x7FFF (f.right.toInt + p.2))).toInt16

theorem mixSample_fullVolume (dst : Int16) (sample : Int) :
    mixSample dst sample Wav.fullVolume = (max (-0x8000) (min 0x7FFF (dst.toInt + sample))).toInt16 := by
  rw [mixSample, Wav.fullVolume, Int.mul_ediv_cancel _ (by decide)]

namespace Wav

variable {w : Wav} {p : Int × Int}

/-- The samples of a sound, those of both sides in turn. -/
def levels (w : Wav) : List Int :=
  if w.wide then (paired (Bytes.list w.samples)).map fun p => (Bytes.join p.1 p.2).toInt16.toInt
  else (Bytes.list w.samples).map fun b => (widen b).toInt

/-- The moments that a sound is made of, each with the samples of both sides. -/
def moments (w : Wav) : List (Int × Int) := if w.stereo then paired w.levels else w.levels.map fun s => (s, s)

/-- The place of the sample that is taken after `n` others. -/
def place (w : Wav) (n : Nat) : Nat := (w.offset + n * w.step) / 256

/-- The sample that is taken after `n` others, as far as the sound goes. -/
def taken (w : Wav) (n : Nat) : Option Int := w.levels[w.place n]?

/-- What is heard after `k` moments, as far as the sound goes. -/
def heardAt (w : Wav) (k : Nat) : Option (Int × Int) :=
  if w.stereo then Option.map₂ Prod.mk (w.taken (2 * k)) (w.taken (2 * k + 1))
  else (w.taken k).map fun s => (s, s)

theorem place_mono (w : Wav) {m n : Nat} (h : m ≤ n) : w.place m ≤ w.place n :=
  Nat.div_le_div_right (Nat.add_le_add_left (Nat.mul_le_mul_right _ h) _)

theorem heardAt_eq_none {k : Nat} :
    w.heardAt k = none ↔ w.levels.length ≤ w.place (if w.stereo then 2 * k + 1 else k) := by
  unfold heardAt taken
  cases w.stereo
  · simp
  · have hmono : w.place (2 * k) ≤ w.place (2 * k + 1) := w.place_mono (Nat.le_succ _)
    simp only [if_true, Option.map₂_eq_none_iff, List.getElem?_eq_none_iff]
    omega

/-- Nothing is heard any more behind the end. -/
theorem heardAt_none_of_le {j k : Nat} (h : w.heardAt j = none) (hjk : j ≤ k) : w.heardAt k = none := by
  rw [heardAt_eq_none] at h ⊢
  refine Nat.le_trans h (w.place_mono ?_)
  split
  · omega
  · exact hjk

/-! ### One moment after the other -/

theorem sample?_eq (w : Wav) : w.sample?.map Int16.toInt = w.taken 0 := by
  unfold sample? taken levels place
  by_cases h : w.wide
  · simp [h, Bytes.le16s?, Bytes.le16?_eq, getElem?_paired, Option.map_map₂]
  · rw [if_neg h, if_neg h, List.getElem?_map, Bytes.getElem?_list, Option.map_map, Nat.zero_mul, Nat.add_zero]
    rfl

/-- A sound that has stepped on. -/
def stepped (w : Wav) : Wav := { w with offset := w.offset + w.step }

theorem taken_stepped (w : Wav) (n : Nat) : w.stepped.taken n = w.taken (n + 1) := by
  have hplace : w.stepped.place n = w.place (n + 1) := by
    simp only [place, stepped, Nat.succ_mul]
    congr 1
    omega
  unfold taken
  rw [hplace]
  rfl

theorem next_eq (w : Wav) : w.next = (w.taken 0, if (w.taken 0).isSome then w.stepped else w) := by
  rw [← sample?_eq, next]
  cases w.sample? <;> rfl

theorem nextPair_mono (h : w.stereo = false) :
    w.nextPair = (w.heardAt 0, if (w.heardAt 0).isSome then w.stepped else w) := by
  have hsides : w.stepped.stereo = false := h
  rw [nextPair, next_eq, heardAt, h]
  cases w.taken 0 <;> simp [hsides]

/-- The left sample is taken although there is no right one. -/
theorem nextPair_stereo (h : w.stereo = true) :
    w.nextPair = (w.heardAt 0,
      if (w.heardAt 0).isSome then w.stepped.stepped else if (w.taken 0).isSome then w.stepped else w) := by
  have hsides : w.stepped.stereo = true := h
  rw [nextPair, next_eq, heardAt, h]
  cases w.taken 0 with
  | none => simp
  | some l =>
    simp only [Option.isSome_some, if_true, hsides, next_eq, taken_stepped]
    cases w.taken (0 + 1) <;> simp

theorem nextPair_fst (w : Wav) : w.nextPair.1 = w.heardAt 0 := by
  cases h : w.stereo with
  | false => rw [nextPair_mono h]
  | true => rw [nextPair_stereo h]

/-- Behind the first moment stand the others. -/
theorem heardAt_nextPair {u : Wav} (h : w.nextPair = (some p, u)) (k : Nat) : u.heardAt k = w.heardAt (k + 1) := by
  have hfirst : w.heardAt 0 = some p := by rw [← nextPair_fst, h]
  cases hstereo : w.stereo with
  | false =>
    obtain rfl : w.stepped = u := by simpa [nextPair_mono hstereo, hfirst] using h
    have hsides : w.stepped.stereo = false := hstereo
    simp [heardAt, hsides, hstereo, taken_stepped]
  | true =>
    obtain rfl : w.stepped.stepped = u := by simpa [nextPair_stereo hstereo, hfirst] using h
    have hsides : w.stepped.stepped.stereo = true := hstereo
    simp [heardAt, hsides, hstereo, taken_stepped, Nat.mul_succ]

/-- The moments that are heard are those of their numbers. -/
theorem getElem?_pairs (n : Nat) (w : Wav) (k : Nat) :
    (pairs n w).1[k]? = if k < n then w.heardAt k else none := by
  induction n generalizing w k with
  | zero => simp [pairs]
  | succ n ih =>
    have hfirst := nextPair_fst w
    rcases h : w.nextPair with ⟨_ | p, u⟩
    · rw [h] at hfirst
      rw [pairs_succ_none h, heardAt_none_of_le hfirst.symm (Nat.zero_le k)]
      simp
    · rw [h] at hfirst
      rw [pairs_succ_some h]
      cases k with
      | zero => simpa using hfirst
      | succ k => simp [ih, heardAt_nextPair h]

/-- Behind so many moments a sound is heard as before at the moments that come next. -/
theorem heardAt_pairs (n : Nat) (w : Wav) (k : Nat) : (pairs n w).2.heardAt k = w.heardAt (n + k) := by
  induction n generalizing w k with
  | zero => rw [Nat.zero_add]; rfl
  | succ n ih =>
    have hfirst := nextPair_fst w
    rcases h : w.nextPair with ⟨_ | p, u⟩
    · have hend : u.heardAt 0 = none := by rw [← nextPair_fst, nextPair_end h]
      rw [h] at hfirst
      rw [pairs_succ_none h, heardAt_none_of_le hend (Nat.zero_le _), heardAt_none_of_le hfirst.symm (Nat.zero_le _)]
    · rw [pairs_succ_some h, ih, heardAt_nextPair h, Nat.succ_add]

theorem lt_length_pairs {n k : Nat} : k < (pairs n w).1.length ↔ k < n ∧ (w.heardAt k).isSome := by
  rw [← Nat.not_le, ← List.getElem?_eq_none_iff, getElem?_pairs]
  split <;> simp [*, Option.isSome_iff_ne_none]

/-! ### Reads -/

/-- One buffer after the other, put together, and how many moments the sound gave for them. -/
def reads (w : Wav) : List (List Stereo) → List Stereo × Nat × Wav
  | [] => ([], 0, w)
  | buffer :: rest =>
    let (buffer, n, w) := w.addTo buffer
    let (rest, m, w) := reads w rest
    (buffer ++ rest, n + m, w)

theorem reads_eq (w : Wav) (buffers : List (List Stereo)) :
    w.reads buffers = (laid w.volume (pairs buffers.flatten.length w).1 buffers.flatten,
      (pairs buffers.flatten.length w).1.length, (pairs buffers.flatten.length w).2) := by
  induction buffers generalizing w with
  | nil => rfl
  | cons buffer rest ih =>
    simp only [reads, addTo_eq, ih, pairs_volume, List.flatten_cons, laid_pairs_append]
    rw [List.length_append, pairs_add, List.length_append]

theorem getElem?_laid (volume : Int) (l : List (Int × Int)) (buffer : List Stereo) (k : Nat) :
    (laid volume l buffer)[k]? = buffer[k]?.map fun f =>
      l[k]?.elim f fun p => ⟨mixSample f.left p.1 volume, mixSample f.right p.2 volume⟩ := by
  induction l generalizing buffer k with
  | nil => cases h : buffer[k]? <;> simp [h]
  | cons p l ih =>
    cases buffer with
    | nil => rfl
    | cons f buffer =>
      cases k with
      | zero => rfl
      | succ k => simpa [laid] using ih buffer k

/-- A buffer holds at each of its places what it held there and what is heard at the moment of that number. -/
theorem getElem?_reads (hvolume : w.volume = fullVolume) (buffers : List (List Stereo)) (k : Nat) :
    (w.reads buffers).1[k]? = buffers.flatten[k]?.map fun f => (w.heardAt k).elim f f.plus := by
  rw [reads_eq, getElem?_laid, getElem?_pairs, hvolume]
  simp only [mixSample_fullVolume]
  by_cases hk : k < buffers.flatten.length
  · rw [if_pos hk]
    rfl
  · rw [List.getElem?_eq_none (Nat.not_lt.mp hk)]
    rfl

/-! ### Sounds that are loaded -/

/-- A sound as a file describes it, to be played from its beginning at the given rate. -/
structure Loaded (data : ByteArray) (outputRate : Nat) (w : Wav) : Prop where
  samples : ∃ size, Bytes.le32? data 16 = some size ∧ samplesOf data size.toNat = some w.samples
  sides : ∃ channels, Bytes.le16? data 22 = some channels ∧ (w.stereo = true ↔ channels = 2)
  step : ∃ rate, Bytes.le32? data 24 = some rate ∧ w.step = rate.toNat * 256 / max outputRate 1
  width : ∃ bits, Bytes.le16? data 34 = some bits ∧ (w.wide = true ↔ bits = 16)
  offset : w.offset = 0
  volume : w.volume = fullVolume

theorem load_ok {data : ByteArray} {outputRate : Nat} (h : load data outputRate = .ok w) :
    Loaded data outputRate w := by
  unfold load at h
  split at h
  · cases h
  · split at h
    · rename_i size _ channels rate bits hsize _ hchannels hrate hbits
      split at h
      · cases h
      · split at h
        · cases h
        · rename_i samples hsamples
          cases h
          exact {
            samples := ⟨size, hsize, hsamples⟩
            sides := ⟨channels, hchannels, decide_eq_true_iff⟩
            step := ⟨rate, hrate, rfl⟩
            width := ⟨bits, hbits, decide_eq_true_iff⟩
            offset := rfl
            volume := rfl }
    · cases h

/-- A sound that has not been played yet is heard in its order, at its step, if it has one side only or is not
resampled. -/
theorem heardAt_eq_moments (hoffset : w.offset = 0) (h : w.stereo = false ∨ w.step = 256) (k : Nat) :
    w.heardAt k = w.moments[k * w.step / 256]? := by
  unfold heardAt moments taken place
  rw [hoffset]
  cases hstereo : w.stereo with
  | false => simp
  | true =>
    have hstep : w.step = 256 := by simpa [hstereo] using h
    simp [hstep, getElem?_paired]

/-- There are sounds of any number of samples. -/
theorem exists_length_levels (w : Wav) (n : Nat) : ∃ samples, ({ w with samples } : Wav).levels.length = n := by
  cases hwide : w.wide with
  | false => exact ⟨Bytes.ofList (List.replicate n 0), by simp [levels]⟩
  | true => exact ⟨Bytes.ofList (List.replicate (2 * n) 0), by simp [levels, length_paired]⟩

/-- At a step of more than one sample there is a moment whose right sample comes from behind it. -/
theorem exists_behind {step : Nat} (h : 256 < step) : ∃ k, 2 * (k * step / 256) + 2 ≤ (2 * k + 1) * step / 256 := by
  -- the last moment before a whole sample has been left out
  obtain ⟨d, rfl⟩ := Nat.exists_eq_add_of_lt h
  obtain ⟨k, hk, hlast⟩ : ∃ k, k * (d + 1) ≤ 255 ∧ 255 < k * (d + 1) + (d + 1) :=
    ⟨255 / (d + 1), Nat.div_mul_le_self 255 (d + 1), Nat.lt_div_mul_add d.succ_pos⟩
  refine ⟨k, ?_⟩
  have hleft : k * (256 + d + 1) = 256 * k + k * (d + 1) := by ring
  have hright : (2 * k + 1) * (256 + d + 1) = 512 * k + 2 * (k * (d + 1)) + (d + 1) + 256 := by ring
  rw [hleft, hright]
  omega

/-- Otherwise some samples are not heard in their order: either the right side of the first moment is its left sample, or
the end comes too soon. -/
theorem heardAt_ne_moments (hoffset : w.offset = 0) (hstereo : w.stereo = true) (hstep : w.step ≠ 256) :
    ∃ samples k, ({ w with samples } : Wav).heardAt k ≠ ({ w with samples } : Wav).moments[k * w.step / 256]? := by
  rcases Nat.lt_or_gt_of_ne hstep with hslow | hfast
  · have hplace : w.step / 256 = 0 := Nat.div_eq_of_lt hslow
    refine ⟨Bytes.ofList [0, 1, 2, 3], 0, ?_⟩
    cases w.wide <;> simp [heardAt, moments, taken, place, levels, paired, hoffset, hstereo, hplace] <;> decide
  · obtain ⟨k, hk⟩ := exists_behind hfast
    obtain ⟨samples, hlength⟩ := w.exists_length_levels (2 * (k * w.step / 256) + 2)
    refine ⟨samples, k, ?_⟩
    have hend : ({ w with samples } : Wav).heardAt k = none := by
      rw [heardAt_eq_none, hlength, if_pos hstereo]
      simpa [place, hoffset] using hk
    have hmoment : k * w.step / 256 < ({ w with samples } : Wav).moments.length := by
      rw [moments, if_pos hstereo, length_paired, hlength]
      omega
    rw [hend, List.getElem?_eq_getElem hmoment]
    exact nofun

/-- Just the sounds that are mono or not resampled are heard in their order, whatever their samples are. -/
theorem heardAt_eq_moments_iff (hoffset : w.offset = 0) :
    (∀ samples k, ({ w with samples } : Wav).heardAt k = ({ w with samples } : Wav).moments[k * w.step / 256]?) ↔
      w.stereo = false ∨ w.step = 256 := by
  constructor
  · intro h
    by_contra hboth
    simp only [not_or, Bool.not_eq_false] at hboth
    obtain ⟨samples, k, hne⟩ := heardAt_ne_moments hoffset hboth.1 hboth.2
    exact hne (h samples k)
  · intro h samples k
    exact heardAt_eq_moments (w := { w with samples }) hoffset h k

/-- What reads of a sound that was loaded leave in their buffers, and for how many moments the sound lasts. A stereo
sound gives the sides of moment `k` the samples at `2 * k` and at `2 * k + 1` steps. It is only without resampling that
these always belong to one moment, the one at `k` steps, which a mono sound gives at every rate. -/
theorem load_heard {data : ByteArray} {outputRate : Nat} (h : load data outputRate = .ok w)
    (buffers : List (List Stereo)) (k : Nat) :
    Loaded data outputRate w ∧
      (w.reads buffers).1[k]? = buffers.flatten[k]?.map (fun f => (w.heardAt k).elim f f.plus) ∧
      (k < (w.reads buffers).2.1 ↔ k < buffers.flatten.length ∧ (w.heardAt k).isSome) ∧
      (w.stereo = true → w.heardAt k =
        Option.map₂ Prod.mk w.levels[2 * k * w.step / 256]? w.levels[(2 * k + 1) * w.step / 256]?) ∧
      (w.stereo = false ∨ w.step = 256 → w.heardAt k = w.moments[k * w.step / 256]?) := by
  have hw := load_ok h
  refine ⟨hw, getElem?_reads hw.volume buffers k, ?_, fun hstereo => ?_, fun horder => ?_⟩
  · rw [reads_eq, lt_length_pairs]
  · simp [heardAt, taken, place, hstereo, hw.offset]
  · exact heardAt_eq_moments hw.offset horder k

/-- Three moments of a stereo sound, which are to last six, and two buffers for them. -/
def threeMoments : ByteArray := file 2 11025 8 (Bytes.ofList [0x80, 0xFF, 0x00, 0x90, 0x7F, 0x10])

def halfSpeed : Wav := ⟨Bytes.ofList [0x80, 0xFF, 0x00, 0x90, 0x7F, 0x10], 0, 128, false, true, fullVolume⟩

def twoBuffers : List (List Stereo) := [List.replicate 4 {}, List.replicate 4 {}]

theorem load_heard_threeMoments :
    load threeMoments 22050 = .ok halfSpeed ∧ (halfSpeed.reads twoBuffers).2.1 = 6 ∧
      (halfSpeed.reads twoBuffers).1[4]? = some ⟨-0x100, -0x100⟩ ∧
      (halfSpeed.reads twoBuffers).1[6]? = some ⟨0, 0⟩ := by
  have hload : load threeMoments 22050 = .ok halfSpeed := rfl
  obtain ⟨-, hlast, -⟩ := load_heard hload twoBuffers 4
  obtain ⟨-, hend, -⟩ := load_heard hload twoBuffers 6
  exact ⟨hload, by decide, hlast.trans (by decide), hend.trans (by decide)⟩

/-- The moments of a stereo sound are not always heard one after the other: its first one is heard with the left sample on
both sides. -/
theorem not_always_in_order : ¬∀ data outputRate w, load data outputRate = .ok w → 0 < w.step →
    ∀ buffers k p, k < buffers.flatten.length → w.moments[k * w.step / 256]? = some p →
      (w.reads buffers).1[k]? = buffers.flatten[k]?.map (Stereo.plus · p) := by
  intro h
  have hfirst := h threeMoments 22050 halfSpeed rfl (by decide) twoBuffers 0 (0, 0x7F00) (by decide) (by decide)
  exact absurd hfirst (by decide)

end Wav

end Adventure
