import Adventure.Sound.Mixer
import Mathlib.Algebra.Ring.Nat

/-! Sound in parts. What a mixer gives does not depend on how the moments that are asked for are
divided: a sound goes on where it was left, and one that has come to its end stays there, whether its
channel is free already or not. -/

namespace Adventure

namespace Wav

/-- The samples of the next `n` moments, as far as the sound goes. -/
def pairs : Nat → Wav → List (Int × Int) × Wav
  | 0, w => ([], w)
  | n + 1, w =>
    match w.nextPair with
    | (none, w) => ([], w)
    | (some p, w) => (p :: (pairs n w).1, (pairs n w).2)

/-- Samples added to the first moments of a buffer. -/
def laid (volume : Int) : List (Int × Int) → List Stereo → List Stereo
  | p :: l, f :: r => ⟨mixSample f.left p.1 volume, mixSample f.right p.2 volume⟩ :: laid volume l r
  | _, buffer => buffer

theorem next_volume (w : Wav) : w.next.2.volume = w.volume := by
  unfold next
  split <;> rfl

/-- A sound without a next sample stays as it is. -/
theorem next_none {w u : Wav} (h : w.next = (none, u)) : u = w := by
  unfold next at h
  split at h
  · cases h
  · cases h
    rfl

theorem nextPair_volume (w : Wav) : w.nextPair.2.volume = w.volume := by
  have hleft := next_volume w
  unfold nextPair
  split
  · rename_i u h
    rwa [h] at hleft
  · rename_i l u h
    rw [h] at hleft
    have hright := next_volume u
    split
    · split
      · rename_i v hv
        rw [hv] at hright
        exact hright.trans hleft
      · rename_i r v hv
        rw [hv] at hright
        exact hright.trans hleft
    · exact hleft

/-- A sound is at its end as soon as one side has no sample, although the other side's is taken. -/
theorem nextPair_end {w u : Wav} (h : w.nextPair = (none, u)) : u.nextPair = (none, u) := by
  -- the next sample is missing in `u` in either case
  have hend : u.next = (none, u) := by
    unfold nextPair at h
    split at h
    · rename_i v hv
      cases h
      rwa [← next_none hv] at hv
    · rename_i l v _
      split at h
      · split at h
        · rename_i v' hv'
          cases h
          rwa [← next_none hv'] at hv'
        · cases h
      · cases h
  rw [nextPair, hend]

theorem pairs_succ_none {w u : Wav} (h : w.nextPair = (none, u)) (n : Nat) : pairs (n + 1) w = ([], u) := by
  rw [pairs, h]

theorem pairs_succ_some {w u : Wav} {p : Int × Int} (h : w.nextPair = (some p, u)) (n : Nat) :
    pairs (n + 1) w = (p :: (pairs n u).1, (pairs n u).2) := by
  rw [pairs, h]

theorem pairs_end {u : Wav} (h : u.nextPair = (none, u)) (n : Nat) : pairs n u = ([], u) := by
  cases n with
  | zero => rfl
  | succ n => exact pairs_succ_none h n

theorem length_pairs_le (n : Nat) (w : Wav) : (pairs n w).1.length ≤ n := by
  induction n generalizing w with
  | zero => simp [pairs]
  | succ n ih =>
    rcases h : w.nextPair with ⟨_ | p, u⟩
    · simp [pairs_succ_none h]
    · simpa [pairs_succ_some h] using ih u

theorem pairs_volume (n : Nat) (w : Wav) : (pairs n w).2.volume = w.volume := by
  induction n generalizing w with
  | zero => rfl
  | succ n ih =>
    have hnext := nextPair_volume w
    rcases h : w.nextPair with ⟨_ | p, u⟩
    · rw [pairs_succ_none h]
      rwa [h] at hnext
    · rw [pairs_succ_some h, ih]
      rwa [h] at hnext

/-- The samples of so many moments and those of the moments behind them. -/
theorem pairs_add (a b : Nat) (w : Wav) :
    pairs (a + b) w = ((pairs a w).1 ++ (pairs b (pairs a w).2).1, (pairs b (pairs a w).2).2) := by
  induction a generalizing w with
  | zero => rw [Nat.zero_add]; rfl
  | succ a ih =>
    rw [Nat.succ_add]
    rcases h : w.nextPair with ⟨_ | p, u⟩
    · rw [pairs_succ_none h, pairs_succ_none h, pairs_end (nextPair_end h)]
      rfl
    · rw [pairs_succ_some h, pairs_succ_some h, ih]
      rfl

/-- Nothing comes behind the end of a sound. -/
theorem pairs_short {a : Nat} {w : Wav} (h : (pairs a w).1.length < a) (b : Nat) : (pairs b (pairs a w).2).1 = [] := by
  induction a generalizing w with
  | zero => exact absurd h (Nat.not_lt_zero _)
  | succ a ih =>
    rcases hnext : w.nextPair with ⟨_ | p, u⟩
    · rw [pairs_succ_none hnext, pairs_end (nextPair_end hnext)]
    · rw [pairs_succ_some hnext] at h ⊢
      exact ih (by simpa using h)

@[simp] theorem laid_nil (volume : Int) (buffer : List Stereo) : laid volume [] buffer = buffer := by
  cases buffer <;> rfl

@[simp] theorem length_laid (volume : Int) (l : List (Int × Int)) (buffer : List Stereo) :
    (laid volume l buffer).length = buffer.length := by
  induction l generalizing buffer with
  | nil => rw [laid_nil]
  | cons p l ih =>
    cases buffer with
    | nil => rfl
    | cons f r => simp [laid, ih]

theorem laid_append (volume : Int) {k : List (Int × Int)} {b : List Stereo} (l : List (Int × Int)) (c : List Stereo)
    (hk : k.length = b.length ∨ k.length ≤ b.length ∧ l = []) :
    laid volume (k ++ l) (b ++ c) = laid volume k b ++ laid volume l c := by
  induction k generalizing b with
  | nil =>
    rcases hk with hk | ⟨-, rfl⟩
    · rw [List.length_eq_zero_iff.mp hk.symm]
      rfl
    · simp
  | cons p k ih =>
    cases b with
    | nil => simp at hk
    | cons f b =>
      have hk' : k.length = b.length ∨ k.length ≤ b.length ∧ l = [] := by simpa using hk
      simp [laid, ih hk']

/-- A sound is laid on one part of a buffer and then on the next one, from where it was left. -/
theorem laid_pairs_append (w : Wav) (volume : Int) (b c : List Stereo) :
    laid volume (pairs (b ++ c).length w).1 (b ++ c) =
      laid volume (pairs b.length w).1 b ++ laid volume (pairs c.length (pairs b.length w).2).1 c := by
  have hle := length_pairs_le b.length w
  have hrest : (pairs b.length w).1.length = b.length ∨
      (pairs b.length w).1.length ≤ b.length ∧ (pairs c.length (pairs b.length w).2).1 = [] := by
    rcases Nat.lt_or_eq_of_le hle with hlt | heq
    · exact Or.inr ⟨hle, pairs_short hlt c.length⟩
    · exact Or.inl heq
  rw [List.length_append, pairs_add, laid_append _ _ _ hrest]

/-- Adding a sound to a buffer is laying its samples on it. -/
theorem addFrom_eq (w : Wav) (done : List Stereo) (n : Nat) (buffer : List Stereo) :
    w.addFrom done n buffer = (done.reverse ++ laid w.volume (pairs buffer.length w).1 buffer,
      n + (pairs buffer.length w).1.length, (pairs buffer.length w).2) := by
  induction buffer generalizing w done n with
  | nil => simp [addFrom, pairs]
  | cons f buffer ih =>
    have hvolume := nextPair_volume w
    rcases h : w.nextPair with ⟨_ | p, u⟩
    · simp [addFrom, h, pairs, List.reverseAux_eq]
    · rw [h] at hvolume
      simp only [] at hvolume
      simp only [addFrom, h, ih, hvolume, List.length_cons, pairs, laid, List.reverse_cons, List.append_assoc,
        List.cons_append, List.nil_append, Nat.add_assoc, Nat.add_comm 1]

theorem addTo_eq (w : Wav) (buffer : List Stereo) :
    w.addTo buffer = (laid w.volume (pairs buffer.length w).1 buffer, (pairs buffer.length w).1.length,
      (pairs buffer.length w).2) := by
  simp [addTo, addFrom_eq]

end Wav

namespace SoundQueue

theorem fillFrom_done (chunks : List (ByteArray × Nat)) (done b : List Stereo) :
    fillFrom chunks done b = (done.reverse ++ (fillFrom chunks [] b).1, (fillFrom chunks [] b).2) := by
  induction b generalizing chunks done with
  | nil => simp [fillFrom]
  | cons f b ih =>
    cases h : next chunks with
    | none => simp [fillFrom, h, List.reverseAux_eq]
    | some p =>
      simp only [fillFrom, h]
      rw [ih p.2 (_ :: done), ih p.2 [_]]
      simp

theorem fillFrom_none {chunks : List (ByteArray × Nat)} (h : next chunks = none) (b : List Stereo) :
    fillFrom chunks [] b = (b, chunks) := by
  cases b with
  | nil => rfl
  | cons f b => simp [fillFrom, h]

theorem fillFrom_some {chunks rest : List (ByteArray × Nat)} {s : Int16} (h : next chunks = some (s, rest)) (f : Stereo)
    (b : List Stereo) : fillFrom chunks [] (f :: b) = (⟨s, s⟩ :: (fillFrom rest [] b).1, (fillFrom rest [] b).2) := by
  simp only [fillFrom, h]
  rw [fillFrom_done]
  rfl

theorem fillFrom_append (chunks : List (ByteArray × Nat)) (b c : List Stereo) :
    (fillFrom chunks [] (b ++ c)).1 = (fillFrom chunks [] b).1 ++ (fillFrom (fillFrom chunks [] b).2 [] c).1 := by
  induction b generalizing chunks with
  | nil => rfl
  | cons f b ih =>
    cases h : next chunks with
    | none => simp [fillFrom_none h]
    | some p =>
      rw [List.cons_append, fillFrom_some h, fillFrom_some h, ih]
      rfl

theorem length_fill (q : SoundQueue) (b : List Stereo) : (q.fill b).1.length = b.length := by
  have hfrom (chunks : List (ByteArray × Nat)) : (fillFrom chunks [] b).1.length = b.length := by
    induction b generalizing chunks with
    | nil => rfl
    | cons f b ih =>
      cases h : next chunks with
      | none => rw [fillFrom_none h]
      | some p => simp [fillFrom_some h, ih]
  by_cases h : q.preloaded < preload
  · simp [fill, h]
  · simp [fill, h, hfrom]

theorem fill_append (q : SoundQueue) (b c : List Stereo) :
    (q.fill (b ++ c)).1 = (q.fill b).1 ++ ((q.fill b).2.fill c).1 := by
  by_cases h : q.preloaded < preload
  · simp [fill, h]
  · simp [fill, h, fillFrom_append]

end SoundQueue

namespace Mixer

theorem mixChannel_some (c : Channel) (buffer : List Stereo) :
    mixChannel (some c) buffer =
      (if (Wav.pairs buffer.length c.sound).1.length = 0 then none
        else some { c with sound := (Wav.pairs buffer.length c.sound).2 },
      Wav.laid c.sound.volume (Wav.pairs buffer.length c.sound).1 buffer) := by
  simp [mixChannel, Wav.addTo_eq]

theorem length_mixChannel (c : Option Channel) (buffer : List Stereo) :
    (mixChannel c buffer).2.length = buffer.length := by
  cases c with
  | none => rfl
  | some c => simp [mixChannel_some]

/-- A channel adds to one part of a buffer and then to the next one, from where it was left. -/
theorem mixChannel_append (c : Option Channel) {b : List Stereo} (hb : b ≠ []) (d : List Stereo) :
    (mixChannel c (b ++ d)).2 = (mixChannel c b).2 ++ (mixChannel (mixChannel c b).1 d).2 := by
  cases c with
  | none => rfl
  | some c =>
    rw [mixChannel_some, mixChannel_some, Wav.laid_pairs_append]
    by_cases hnone : (Wav.pairs b.length c.sound).1.length = 0
    · -- the channel is free, and its sound would have added nothing
      have hlt : (Wav.pairs b.length c.sound).1.length < b.length := hnone ▸ List.length_pos_iff.mpr hb
      simp [hnone, Wav.pairs_short hlt, mixChannel]
    · simp [hnone, mixChannel_some, Wav.pairs_volume]

theorem length_mixChannels (l : List (Option Channel)) (buffer : List Stereo) :
    (mixChannels l buffer).2.length = buffer.length := by
  induction l generalizing buffer with
  | nil => rfl
  | cons c l ih => simp [mixChannels, ih, length_mixChannel]

theorem mixChannels_append (l : List (Option Channel)) {b : List Stereo} (hb : b ≠ []) (d : List Stereo) :
    (mixChannels l (b ++ d)).2 = (mixChannels l b).2 ++ (mixChannels (mixChannels l b).1 d).2 := by
  induction l generalizing b d with
  | nil => rfl
  | cons c l ih =>
    have hnext : (mixChannel c b).2 ≠ [] := by
      rw [← List.length_pos_iff, length_mixChannel]
      exact List.length_pos_iff.mpr hb
    simp only [mixChannels]
    rw [mixChannel_append c hb, ih hnext]

/-- So many moments are given as are asked for. -/
theorem length_mix (m : Mixer) (n : Nat) : (m.mix n).1.length = n := by
  unfold mix
  by_cases h : m.cutscene
  · simp [h, SoundQueue.length_fill]
  · simp [h, length_mixChannels]

/-- What comes of the next moments and of those behind them comes of all of them at once. -/
theorem mix_add (m : Mixer) {a : Nat} (ha : 0 < a) (b : Nat) :
    (m.mix (a + b)).1 = (m.mix a).1 ++ ((m.mix a).2.mix b).1 := by
  have hsilence : List.replicate a ({} : Stereo) ≠ [] := by
    rw [← List.length_pos_iff, List.length_replicate]
    exact ha
  unfold mix
  by_cases h : m.cutscene
  · simp [h, ← List.replicate_append_replicate, SoundQueue.fill_append]
  · simp [h, ← List.replicate_append_replicate, mixChannels_append _ hsilence]

/-- One part after the other, put together. -/
def mixParts : List Nat → Mixer → List Stereo × Mixer
  | [], m => ([], m)
  | n :: parts, m =>
    let (buffer, m) := m.mix n
    let (rest, m) := mixParts parts m
    (buffer ++ rest, m)

/-- However the moments that are asked for are divided into parts, the same is heard. -/
theorem mixParts_eq_mix (m : Mixer) (parts : List Nat) (hparts : ∀ n ∈ parts, 0 < n) :
    (m.mixParts parts).1 = (m.mix parts.sum).1 := by
  induction parts generalizing m with
  | nil => exact (List.length_eq_zero_iff.mp (m.length_mix 0)).symm
  | cons n parts ih =>
    have hn : 0 < n := hparts n List.mem_cons_self
    have hrest : ∀ k ∈ parts, 0 < k := fun k hk => hparts k (List.mem_cons_of_mem _ hk)
    calc (m.mixParts (n :: parts)).1 = (m.mix n).1 ++ ((m.mix n).2.mixParts parts).1 := rfl
      _ = (m.mix n).1 ++ ((m.mix n).2.mix parts.sum).1 := by rw [ih _ hrest]
      _ = (m.mix (n :: parts).sum).1 := by rw [List.sum_cons, mix_add m hn]

/-- A sound that ends on the left side of its second moment, and one that is played at half its speed; on
both sides the two are too loud together. -/
def loudMixer : Mixer :=
  { Mixer.ofRate 22050 with
    channels := [some ⟨16, ⟨Bytes.ofList [0xFF, 0x00, 0xC0], 0, 256, false, true, 256⟩⟩,
      some ⟨33, ⟨Bytes.ofList [0xFF, 0x90], 0, 128, false, false, 256⟩⟩, none, none] }

theorem mixParts_eq_mix_loudMixer : (∀ n ∈ [2, 1, 3], 0 < n) ∧
    (loudMixer.mixParts [2, 1, 3]).1 = (loudMixer.mix [2, 1, 3].sum).1 ∧
    (loudMixer.mix [2, 1, 3].sum).1 = [⟨32767, -256⟩, ⟨32512, 32512⟩, ⟨4096, 4096⟩, ⟨4096, 4096⟩, {}, {}] :=
  ⟨by decide, mixParts_eq_mix _ _ (by decide), by decide⟩

end Mixer

end Adventure
