import Adventure.Proofs.Sound.Plays

/-! What is heard of a mixer. Two mixers give the same sounds, and answer alike whether the sound that
is followed is over, when their channels hold the same sounds and they follow the sound in the same
channel; how the sounds were numbered does not matter. -/

namespace Adventure

/-- The sounds in the channels, and the channel of the one that is followed while it goes on. -/
structure Voices where
  outputRate : Nat
  volume : Int
  cutscene : Bool
  sounds : List (Option Wav)
  followed : Option Nat

namespace Voices

/-- The sound that is followed is stopped. -/
def stop (v : Voices) : Voices :=
  match v.followed with
  | none => v
  | some i => { v with sounds := v.sounds.set i none, followed := none }

def stopAll (v : Voices) : Voices := { v with sounds := List.replicate v.sounds.length none, followed := none }

/-- What becomes of a sound in `n` moments. -/
def heard (n : Nat) (w : Wav) : Option Wav :=
  if (Wav.pairs n w).1.length = 0 then none else some (Wav.pairs n w).2

def mixed (n : Nat) (v : Voices) : Voices :=
  if v.cutscene then v
  else
    { v with
      sounds := v.sounds.map (·.bind (heard n))
      followed := v.followed.filter fun i => ((v.sounds[i]?.join).bind (heard n)).isSome }

theorem length_stop (v : Voices) : v.stop.sounds.length = v.sounds.length := by
  unfold stop
  split
  · rfl
  · exact List.length_set

theorem length_stopAll (v : Voices) : v.stopAll.sounds.length = v.sounds.length := List.length_replicate

theorem length_mixed (n : Nat) (v : Voices) : (v.mixed n).sounds.length = v.sounds.length := by
  unfold mixed
  split
  · rfl
  · exact List.length_map _

/-- A sound that can be read is started on the first free channel, if there is one, and is followed. -/
def play (v : Voices) (file : ByteArray) : Option Voices :=
  match Wav.load file v.outputRate, v.sounds.findIdx? Option.isNone with
  | .ok w, some i => some { v with sounds := v.sounds.set i (some { w with volume := v.volume }), followed := some i }
  | _, _ => none

theorem length_play {v u : Voices} {file : ByteArray} (h : v.play file = some u) : u.sounds.length = v.sounds.length := by
  unfold play at h
  split at h
  · cases h
    exact List.length_set
  · cases h

end Voices

namespace Mixer

variable (m : Mixer) (id : Int)

def voices : Voices where
  outputRate := m.outputRate
  volume := m.volume
  cutscene := m.cutscene
  sounds := m.channels.map (·.map Channel.sound)
  followed := (m.find? id).map fun _ => channelIndex id

theorem isPlaying_eq : m.isPlaying id = (m.voices id).followed.isSome := by
  simp [isPlaying, voices]

theorem find?_set_none (l : List (Option Channel)) (h : m.channels = l.set (channelIndex id) none) :
    m.find? id = none := by
  rw [find?, h, List.getElem?_set_self']
  cases l[channelIndex id]? <;> rfl

theorem voices_stop : (m.stop id).voices id = (m.voices id).stop := by
  cases hfind : m.find? id with
  | none => simp [stop, isPlaying, voices, Voices.stop, hfind]
  | some c =>
    have hgone := find?_set_none (m.stop id) id m.channels (by simp [stop, isPlaying, hfind])
    simp only [voices, Voices.stop, hgone, hfind, Option.map_some]
    simp [stop, isPlaying, hfind, List.map_set]

theorem voices_stopAll : m.stopAll.voices id = (m.voices id).stopAll := by
  have hgone : m.stopAll.find? id = none := by
    simp only [find?, stopAll, List.getElem?_map]
    cases m.channels[channelIndex id]? <;> rfl
  simp only [voices, Voices.stopAll, hgone]
  simp [stopAll]

theorem heardChannel_eq (n : Nat) (c : Channel) :
    heardChannel n c = (Voices.heard n c.sound).map fun w => { c with sound := w } := by
  unfold heardChannel Voices.heard
  split <;> rfl

/-- Sounds go on or come to their ends, each for itself. -/
theorem voices_mix (n : Nat) : (m.mix n).2.voices id = (m.voices id).mixed n := by
  by_cases hcutscene : m.cutscene = true
  · simp [mix, voices, Voices.mixed, hcutscene, find?]
  · have hchannels := channels_mix (m := m) (by simpa using hcutscene) n
    have hsounds : (m.mix n).2.channels.map (·.map Channel.sound) =
        (m.channels.map (·.map Channel.sound)).map (·.bind (Voices.heard n)) := by
      rw [hchannels, List.map_map, List.map_map]
      refine List.map_congr_left fun c _ => ?_
      rcases c with _ | c
      · rfl
      · simp [heardChannel_eq, Function.comp_def]
    -- a channel keeps its number while its sound goes on, so the sound is followed as long as it is heard
    have hfollowed : ((m.mix n).2.find? id).map (fun _ => channelIndex id) =
        ((m.find? id).map fun _ => channelIndex id).filter fun i =>
          (((m.channels.map (·.map Channel.sound))[i]?.join).bind (Voices.heard n)).isSome := by
      unfold find?
      rw [hchannels, List.getElem?_map]
      rcases hc : m.channels[channelIndex id]? with _ | _ | c
      · rfl
      · rfl
      · by_cases hid : (c.id : Int) = id <;>
          cases hheard : Voices.heard n c.sound <;> simp [heardChannel_eq, hid, hheard, hc, Option.filter]
    simp only [voices, Voices.mixed, hsounds, hfollowed]
    simp [mix, hcutscene]

/-- A sound that is started is one of those that are told apart by their channels. -/
theorem voices_play (hroom : (m.voices id).sounds.length ≤ 16) (file : ByteArray) :
    (m.play file).toOption.map (fun p => p.2.voices p.1) = (m.voices id).play file := by
  have hfree : (m.voices id).sounds.findIdx? Option.isNone = m.channels.findIdx? Option.isNone := by
    simp [voices, List.findIdx?_map, Function.comp_def]
  unfold play Voices.play
  rw [hfree]
  cases hload : Wav.load file m.outputRate with
  | error e =>
    rw [show (m.voices id).outputRate = m.outputRate from rfl, hload]
    rfl
  | ok w =>
    rw [show (m.voices id).outputRate = m.outputRate from rfl, hload]
    unfold start
    cases hi : m.channels.findIdx? Option.isNone with
    | none => rfl
    | some i =>
      obtain ⟨hlt, -, -⟩ := List.findIdx?_eq_some_iff_getElem.mp hi
      rw [voices, List.length_map] at hroom
      -- with at most sixteen channels the lowest four bits of a number are all of its channel
      have hindex : channelIndex (((m.seed + 1) % 0x10000 * 16 + i : Nat) : Int) = i := by
        rw [channelIndex_natCast]
        omega
      simp only [Except.toOption, Option.map_some, voices, find?, hindex]
      simp [List.map_set, hlt]

end Mixer

end Adventure
