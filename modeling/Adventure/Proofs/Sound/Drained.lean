import Adventure.Proofs.Sound.Plays
import Adventure.Proofs.Sound.Resampling
import Adventure.Stage.Basic

/-! When channels become free. A channel is let go when its sound gives nothing for a buffer, which is so when the sound
has come to its end, and also when the buffer has no room. As long as no buffer is empty, a sound goes on until a
buffer begins behind its end. -/

namespace Adventure

namespace Wav

variable {w : Wav}

/-- There is nothing more to come of a sound, however much of it is asked for. -/
def Drained (w : Wav) : Prop := ∀ buffer, (w.addTo buffer).2.1 = 0

theorem length_pairs_eq_zero {n : Nat} : (pairs n w).1.length = 0 ↔ n = 0 ∨ w.heardAt 0 = none := by
  have hfirst := lt_length_pairs (w := w) (n := n) (k := 0)
  rw [Nat.pos_iff_ne_zero, Nat.pos_iff_ne_zero, Option.isSome_iff_ne_none] at hfirst
  exact not_iff_not.mp (hfirst.trans not_or.symm)

theorem drained_iff : w.Drained ↔ w.heardAt 0 = none := by
  constructor
  · intro h
    have hmoment := h [{}]
    rw [addTo_eq, length_pairs_eq_zero] at hmoment
    simpa using hmoment
  · intro h buffer
    rw [addTo_eq]
    exact length_pairs_eq_zero.mpr (Or.inr h)

instance (w : Wav) : Decidable w.Drained := decidable_of_iff (w.heardAt 0 = none) drained_iff.symm

end Wav

namespace Mixer

variable {m : Mixer} {id : Int} {c : Channel}

/-- A channel becomes free just when nothing is asked of it or nothing is left. -/
theorem heardChannel_eq_none {n : Nat} : heardChannel n c = none ↔ n = 0 ∨ c.sound.Drained := by
  rw [Wav.drained_iff, ← Wav.length_pairs_eq_zero, heardChannel]
  split <;> simp [*]

theorem isPlaying_mix (hc : m.find? id = some c) (n : Nat) :
    (m.mix n).2.isPlaying id = false ↔ m.cutscene = false ∧ (n = 0 ∨ c.sound.Drained) := by
  cases hcutscene : m.cutscene with
  | true =>
    have hchannels : (m.mix n).2.find? id = m.find? id := by simp [mix, hcutscene, find?]
    simp [isPlaying, hchannels, hc]
  | false => simp [isPlaying, find?_mix hcutscene, hc, heardChannel_eq_none]

/-- A channel is let go by a buffer just when its sound has come to its end or the buffer has no room, and the sound of a
cutscene is not on. The sound of an id is told to be over just then. -/
theorem mix_frees (m : Mixer) (n : Nat) :
    (∀ (i : Nat) (c : Channel), m.channels[i]? = some (some c) →
      ((m.mix n).2.channels[i]? = some none ↔ m.cutscene = false ∧ (n = 0 ∨ c.sound.Drained))) ∧
    ∀ (id : Int) (c : Channel), m.find? id = some c →
      ((m.mix n).2.isPlaying id = false ↔ m.cutscene = false ∧ (n = 0 ∨ c.sound.Drained)) := by
  refine ⟨fun i c hc => ?_, fun id c hc => isPlaying_mix hc n⟩
  cases hcutscene : m.cutscene with
  | true => simp [mix, hcutscene, hc]
  | false => simp [channels_mix hcutscene, hc, heardChannel_eq_none]

/-- A sound of four moments, which has just been started. -/
def startedMixer : Mixer :=
  { Mixer.ofRate 22050 with
    channels := [some ⟨16, ⟨Bytes.ofList [0x90, 0xA0, 0xB0, 0xC0], 0, 256, false, false, 256⟩⟩, none, none, none],
    seed := 1 }

theorem mix_frees_startedMixer :
    (Mixer.ofRate 22050).play (Wav.file 1 22050 8 (Bytes.ofList [0x90, 0xA0, 0xB0, 0xC0])) = .ok (16, startedMixer) ∧
      startedMixer.isPlaying 16 = true ∧ (startedMixer.mix 4).2.isPlaying 16 = true ∧
      ((startedMixer.mix 4).2.mix 1).2.isPlaying 16 = false := by
  obtain ⟨-, hfour⟩ := mix_frees startedMixer 4
  obtain ⟨-, hfive⟩ := mix_frees (startedMixer.mix 4).2 1
  refine ⟨rfl, rfl, ?_, (hfive 16 _ rfl).mpr (by decide)⟩
  rw [← Bool.not_eq_false, hfour 16 _ rfl]
  decide

/-- Not only sounds that have come to their end are let go. -/
theorem not_only_drained : ¬∀ (m : Mixer) (n : Nat) (id : Int) (c : Channel), m.find? id = some c →
    ¬c.sound.Drained → (m.mix n).2.isPlaying id = true := by
  intro h
  exact absurd (h startedMixer 0 16 _ rfl (by decide)) (by decide)

/-! ### Buffers that are not empty -/

theorem cutscene_mix (m : Mixer) (n : Nat) : (m.mix n).2.cutscene = m.cutscene := by
  cases hcutscene : m.cutscene <;> simp [mix, hcutscene]

theorem isPlaying_mixParts_none (h : m.cutscene = false) (hc : m.find? id = none) (parts : List Nat) :
    (m.mixParts parts).2.isPlaying id = false := by
  induction parts generalizing m with
  | nil => simp [mixParts, isPlaying, hc]
  | cons n parts ih =>
    have hnone : (m.mix n).2.find? id = none := by rw [find?_mix h, hc, Option.bind_none]
    exact ih ((m.cutscene_mix n).trans h) hnone

/-- As long as something is asked for, a sound goes on just until a part begins behind its end. -/
theorem isPlaying_mixParts (h : m.cutscene = false) (hc : m.find? id = some c) {parts : List Nat}
    (hparts : ∀ n ∈ parts, 0 < n) {n : Nat} (hn : 0 < n) :
    (m.mixParts (parts ++ [n])).2.isPlaying id = (c.sound.heardAt parts.sum).isSome := by
  induction parts generalizing m c with
  | nil =>
    have hlast : (m.mix n).2.isPlaying id = false ↔ c.sound.heardAt 0 = none := by
      simp [isPlaying_mix hc, h, Wav.drained_iff, hn.ne']
    change (m.mix n).2.isPlaying id = (c.sound.heardAt 0).isSome
    rw [Bool.eq_iff_iff, ← Bool.not_eq_false, hlast, Option.isSome_iff_ne_none]
  | cons a parts ih =>
    have ha : a ≠ 0 := (hparts a List.mem_cons_self).ne'
    have hrest : ∀ k ∈ parts, 0 < k := fun k hk => hparts k (List.mem_cons_of_mem _ hk)
    have hcutscene : (m.mix a).2.cutscene = false := (m.cutscene_mix a).trans h
    have hfind : (m.mix a).2.find? id = heardChannel a c := by rw [find?_mix h, hc, Option.bind_some]
    change ((m.mix a).2.mixParts (parts ++ [n])).2.isPlaying id = (c.sound.heardAt (a :: parts).sum).isSome
    cases hheard : heardChannel a c with
    | none =>
      have hend : c.sound.heardAt 0 = none := by
        simpa [ha, Wav.drained_iff] using heardChannel_eq_none.mp hheard
      rw [isPlaying_mixParts_none hcutscene (hfind.trans hheard), Wav.heardAt_none_of_le hend (Nat.zero_le _)]
      rfl
    | some d =>
      have hsound : d.sound = (Wav.pairs a c.sound).2 := by
        unfold heardChannel at hheard
        split at hheard <;> cases hheard
        rfl
      rw [ih hcutscene (hfind.trans hheard) hrest, hsound, Wav.heardAt_pairs, List.sum_cons]

end Mixer

namespace Stage

/-- A wait that is too short for a moment of sound lets every sound go. -/
theorem isPlaying_sleep {s : Stage} (haudible : s.audible = true) {id : Int} {c : Channel}
    (hc : s.mixer.find? id = some c) (ms : UInt32) :
    (s.sleep ms).mixer.isPlaying id = false ↔
      s.mixer.cutscene = false ∧ (s.outputRate * ms.toNat < 1000 ∨ c.sound.Drained) := by
  have hmixer : (s.sleep ms).mixer = (s.mixer.mix (s.outputRate * ms.toNat / 1000)).2 := by simp [sleep, haudible]
  rw [hmixer, Mixer.isPlaying_mix hc, Nat.div_eq_zero_iff]
  simp

end Stage

end Adventure
