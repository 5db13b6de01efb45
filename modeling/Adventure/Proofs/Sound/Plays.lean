import Adventure.Proofs.Sound.Parts
import Mathlib.Data.List.Nodup
import Mathlib.Data.List.ReduceOption

/-! Plays of sounds. Every start of a sound is a play of its own, and its id is the name of that play
alone, also when its channel is taken again by a later one. The channels hold the sounds of just those
plays that are not over. -/

namespace Adventure

namespace Mixer

/-- Lets the sound of a cutscene take the place of all others, or brings these back. -/
def setStream (m : Mixer) : Option SoundQueue → Mixer
  | some queue => { m with queue, cutscene := true }
  | none => { m with cutscene := false }

theorem beginCutscene_eq (m : Mixer) : m.beginCutscene = m.setStream (some {}) := rfl

theorem endCutscene_eq (m : Mixer) : m.endCutscene = m.setStream none := rfl

/-- What a mixer can be asked to do. -/
inductive Call where
  | play (file : ByteArray)
  | stop (id : Int)
  | stopAll
  | setStream (stream : Option SoundQueue)
  | setVolume (volume : Int)
  | mix (n : Nat)

/-- A sound that was started, with the id that was given for it. -/
structure Play where
  id : Int
  /-- The sound as far as it has been played. -/
  sound : Wav
  ended : Bool := false

namespace Play

def stopped (p : Play) : Play := { p with ended := true }

/-- The next `n` moments of a play. It is over when its sound gives nothing. -/
def heard (n : Nat) (p : Play) : Play :=
  let (_, given, sound) := p.sound.addTo (List.replicate n {})
  { p with sound, ended := p.ended || given = 0 }

/-- What a channel holds of a play: nothing when it is over. -/
def channel? (p : Play) : Option Channel := if p.ended then none else some ⟨p.id.toNat, p.sound⟩

end Play

/-- A mixer, and all plays that were started on it, the first one first. -/
structure History where
  mixer : Mixer
  plays : List Play := []

namespace History

/-- A sound that can be read is started, if a channel is free. -/
def play (h : History) (file : ByteArray) : History :=
  match Wav.load file h.mixer.outputRate, h.mixer.play file with
  | .ok sound, .ok (id, mixer) => ⟨mixer, h.plays ++ [{ id, sound := { sound with volume := h.mixer.volume } }]⟩
  | _, _ => h

/-- What a call makes of the mixer and of the plays. While a cutscene is on none of them is heard. -/
def call (h : History) : Call → History
  | .play file => h.play file
  | .stop id => ⟨h.mixer.stop id, h.plays.map fun p => if p.id = id then p.stopped else p⟩
  | .stopAll => ⟨h.mixer.stopAll, h.plays.map Play.stopped⟩
  | .setStream stream => { h with mixer := h.mixer.setStream stream }
  | .setVolume volume => { h with mixer := h.mixer.setVolume volume }
  | .mix n => ⟨(h.mixer.mix n).2, if h.mixer.cutscene then h.plays else h.plays.map (Play.heard n)⟩

/-- A new mixer after some calls. -/
def ofCalls (outputRate : Nat) (calls : List Call) : History := calls.foldl call { mixer := Mixer.ofRate outputRate }

end History

/-! ### Channels -/

variable {l : List (Option Channel)} {i : Nat}

/-- Taking a free channel. -/
theorem reduceOption_set_perm (h : l[i]? = some none) (c : Channel) :
    (l.set i (some c)).reduceOption.Perm (c :: l.reduceOption) := by
  induction l generalizing i with
  | nil => simp at h
  | cons x l ih =>
    cases i with
    | zero =>
      obtain rfl : x = none := by simpa using h
      simp
    | succ i =>
      have hrest := ih (i := i) (by simpa using h)
      cases x with
      | none => simpa using hrest
      | some d => simpa using (hrest.cons d).trans (.swap c d _)

theorem reduceOption_map_bind (f : Channel → Option Channel) :
    (l.map (·.bind f)).reduceOption = l.reduceOption.filterMap f := by
  simp only [List.reduceOption, List.filterMap_map, List.filterMap_filterMap]
  rfl

/-- The id of a sound names the channel that it is in. -/
def Slotted (l : List (Option Channel)) : Prop := ∀ i c, l[i]? = some (some c) → c.id % 16 = i

theorem channelIndex_natCast (n : Nat) : channelIndex n = n % 16 := by
  unfold channelIndex
  omega

variable {m : Mixer}

theorem isPlaying_eq_true {id : Int} :
    m.isPlaying id = true ↔ ∃ c : Channel, m.channels[channelIndex id]? = some (some c) ∧ (c.id : Int) = id := by
  unfold isPlaying find?
  rcases m.channels[channelIndex id]? with _ | _ | c <;> simp [Option.filter]

/-- A sound is playing when any channel has one of its id. -/
theorem isPlaying_iff (hslots : Slotted m.channels) (id : Int) :
    m.isPlaying id = true ↔ ∃ c ∈ m.channels.reduceOption, (c.id : Int) = id := by
  simp only [List.reduceOption_mem_iff]
  constructor
  · intro h
    obtain ⟨c, hc, hid⟩ := isPlaying_eq_true.mp h
    exact ⟨c, List.mem_of_getElem? hc, hid⟩
  · rintro ⟨c, hc, rfl⟩
    obtain ⟨i, hi⟩ := List.mem_iff_getElem?.mp hc
    have hindex : channelIndex c.id = i := (channelIndex_natCast _).trans (hslots i c hi)
    exact isPlaying_eq_true.mpr ⟨c, hindex ▸ hi, rfl⟩

/-- Stopping a sound empties whatever channel has one of its id. -/
theorem channels_stop (hslots : Slotted m.channels) (id : Int) :
    (m.stop id).channels = m.channels.map (·.bind fun c => if (c.id : Int) = id then none else some c) := by
  have hother {i : Nat} {c : Channel} (hc : m.channels[i]? = some (some c)) (hid : (c.id : Int) = id) :
      channelIndex id = i := by
    rw [← hid, channelIndex_natCast]
    exact hslots i c hc
  apply List.ext_getElem?
  intro i
  rw [List.getElem?_map, stop]
  by_cases hplaying : m.isPlaying id = true
  · obtain ⟨c, hc, hid⟩ := isPlaying_eq_true.mp hplaying
    rw [if_pos hplaying, List.getElem?_set]
    by_cases hi : channelIndex id = i
    · subst hi
      obtain ⟨hlt, -⟩ := List.getElem?_eq_some_iff.mp hc
      rw [if_pos rfl, hc]
      simp [hid, hlt]
    · rw [if_neg hi]
      rcases hd : m.channels[i]? with _ | _ | d
      · rfl
      · rfl
      · have hne : (d.id : Int) ≠ id := fun h => hi (hother hd h)
        simp [hne]
  · rw [if_neg hplaying]
    rcases hd : m.channels[i]? with _ | _ | d
    · rfl
    · rfl
    · have hne : (d.id : Int) ≠ id := fun h => hplaying (isPlaying_eq_true.mpr ⟨d, hother hd h ▸ hd, h⟩)
      simp [hne]

/-- What becomes of a channel's sound in `n` moments. -/
def heardChannel (n : Nat) (c : Channel) : Option Channel :=
  if (Wav.pairs n c.sound).1.length = 0 then none else some { c with sound := (Wav.pairs n c.sound).2 }

theorem fst_mixChannels (l : List (Option Channel)) (buffer : List Stereo) :
    (mixChannels l buffer).1 = l.map (·.bind (heardChannel buffer.length)) := by
  induction l generalizing buffer with
  | nil => rfl
  | cons c l ih =>
    simp only [mixChannels, List.map_cons, ih, length_mixChannel]
    cases c with
    | none => rfl
    | some c => rw [mixChannel_some]; rfl

theorem channels_mix (h : m.cutscene = false) (n : Nat) :
    (m.mix n).2.channels = m.channels.map (·.bind (heardChannel n)) := by
  simp [mix, h, fst_mixChannels]

theorem find?_mix (h : m.cutscene = false) (n : Nat) (id : Int) :
    (m.mix n).2.find? id = (m.find? id).bind (heardChannel n) := by
  unfold find?
  rw [channels_mix h, List.getElem?_map]
  rcases m.channels[channelIndex id]? with _ | _ | c
  · rfl
  · rfl
  · by_cases hid : (c.id : Int) = id <;> by_cases hend : (Wav.pairs n c.sound).1.length = 0 <;>
      simp [heardChannel, hid, hend, Option.filter]

/-! ### Plays -/

theorem Play.channel?_stopped (p : Play) : p.stopped.channel? = none := rfl

theorem Play.channel?_heard (n : Nat) (p : Play) : (p.heard n).channel? = p.channel?.bind (heardChannel n) := by
  unfold heard channel? heardChannel
  rw [Wav.addTo_eq, List.length_replicate]
  cases p.ended <;> simp

namespace History

variable {h : History}

/-- The plays have ids by their number, and the channels hold the sounds of those that are not over. -/
structure Holds (h : History) : Prop where
  length : h.mixer.channels.length = maxChannels
  seed : h.mixer.seed = h.plays.length % 0x10000
  ids : ∀ k (hk : k < h.plays.length), ∃ i < maxChannels,
    h.plays[k].id = (((k + 1) % 0x10000 * 16 + i : Nat) : Int)
  slotted : Slotted h.mixer.channels
  channels : h.mixer.channels.reduceOption.Perm (h.plays.filterMap Play.channel?)

theorem holds_ofRate (outputRate : Nat) : Holds { mixer := Mixer.ofRate outputRate } where
  length := rfl
  seed := rfl
  ids k hk := absurd hk (Nat.not_lt_zero _)
  slotted i c hc := by
    have hmem := List.mem_of_getElem? hc
    simp [Mixer.ofRate] at hmem
  channels := .refl _

/-- What touches no channel. -/
theorem Holds.congr (hh : h.Holds) {m : Mixer} (hm : m.channels = h.mixer.channels) (hseed : m.seed = h.mixer.seed) :
    Holds ⟨m, h.plays⟩ where
  length := hm ▸ hh.length
  seed := hseed.trans hh.seed
  ids := hh.ids
  slotted := hm ▸ hh.slotted
  channels := hm ▸ hh.channels

/-- What empties channels or lets their sounds go on, and does the same to the plays. -/
theorem Holds.change (hh : h.Holds) {m : Mixer} {f : Channel → Option Channel} {F : Play → Play}
    (hm : m.channels = h.mixer.channels.map (·.bind f)) (hseed : m.seed = h.mixer.seed)
    (hf : ∀ c d, f c = some d → d.id = c.id) (hid : ∀ p, (F p).id = p.id)
    (hF : ∀ p ∈ h.plays, (F p).channel? = p.channel?.bind f) : Holds ⟨m, h.plays.map F⟩ where
  length := by simp [hm, hh.length]
  seed := by simp [hseed, hh.seed]
  ids k hk := by simpa [hid] using hh.ids k (by simpa using hk)
  slotted i c hc := by
    rw [hm, List.getElem?_map, Option.map_eq_some_iff] at hc
    obtain ⟨x, hx, hc⟩ := hc
    obtain ⟨d, rfl, hd⟩ := Option.bind_eq_some_iff.mp hc
    rw [hf d c hd]
    exact hh.slotted i d hx
  channels := by
    have hplays : (h.plays.map F).filterMap Play.channel? = (h.plays.filterMap Play.channel?).filterMap f := by
      rw [List.filterMap_map, List.filterMap_filterMap]
      exact List.filterMap_congr hF
    rw [hm, reduceOption_map_bind, hplays]
    exact hh.channels.filterMap f

theorem Holds.id_eq (hh : h.Holds) {p : Play} (hp : p ∈ h.plays) : (p.id.toNat : Int) = p.id := by
  obtain ⟨k, hk, rfl⟩ := List.mem_iff_getElem.mp hp
  obtain ⟨i, -, hid⟩ := hh.ids k hk
  rw [hid]
  rfl

theorem Holds.stop (hh : h.Holds) (id : Int) : (h.call (.stop id)).Holds := by
  refine hh.change (channels_stop hh.slotted id) ?seed ?sameId (fun p => ?id) fun p hp => ?channel
  case seed =>
    unfold Mixer.stop
    split <;> rfl
  case sameId =>
    intro c d hd
    split at hd <;> cases hd
    rfl
  case id => split <;> rfl
  case channel =>
    by_cases hid : p.id = id
    · rw [if_pos hid, Play.channel?_stopped]
      cases hended : p.ended <;> simp [Play.channel?, hended, (hh.id_eq hp).trans hid]
    · rw [if_neg hid]
      cases hended : p.ended <;> simp [Play.channel?, hended, hh.id_eq hp, hid]

theorem Holds.stopAll (hh : h.Holds) : (h.call .stopAll).Holds := by
  refine hh.change (f := fun _ => none) ?_ rfl (fun _ _ h => absurd h (by simp)) (fun _ => rfl) fun p _ => ?_
  · simp [Mixer.stopAll]
  · simp [Play.channel?_stopped]

theorem Holds.setStream (hh : h.Holds) (stream : Option SoundQueue) : (h.call (.setStream stream)).Holds := by
  cases stream with
  | none => exact hh.congr rfl rfl
  | some queue => exact hh.congr rfl rfl

theorem Holds.mix (hh : h.Holds) (n : Nat) : (h.call (.mix n)).Holds := by
  by_cases hcutscene : h.mixer.cutscene = true
  · rw [call, if_pos hcutscene]
    exact hh.congr (by simp [Mixer.mix, hcutscene]) (by simp [Mixer.mix, hcutscene])
  · rw [call, if_neg hcutscene]
    refine hh.change (channels_mix (by simpa using hcutscene) n) (by simp [Mixer.mix, hcutscene]) ?_ (fun _ => rfl)
      fun p _ => p.channel?_heard n
    intro c d hd
    unfold heardChannel at hd
    split at hd <;> cases hd
    rfl

/-- A sound that is started takes a channel that is free, and the next number. -/
theorem Holds.start (hh : h.Holds) {sound : Wav} {id : Int} {m : Mixer} (hm : h.mixer.start sound = .ok (id, m)) :
    Holds ⟨m, h.plays ++ [({ id, sound } : Play)]⟩ := by
  unfold Mixer.start at hm
  cases hfree : h.mixer.channels.findIdx? Option.isNone with
  | none => rw [hfree] at hm; cases hm
  | some i =>
    rw [hfree] at hm
    cases hm
    obtain ⟨hi, hnone, -⟩ := List.findIdx?_eq_some_iff_getElem.mp hfree
    have hslot : h.mixer.channels[i]? = some none := by
      rw [List.getElem?_eq_getElem hi, Option.isNone_iff_eq_none.mp hnone]
    have hlt : i < maxChannels := hh.length ▸ hi
    have hseed : (h.mixer.seed + 1) % 0x10000 = (h.plays.length + 1) % 0x10000 := by
      rw [hh.seed, Nat.mod_add_mod]
    refine ⟨by simpa using hh.length, by simpa using hseed, fun k hk => ?ids, fun j c hc => ?slotted, ?channels⟩
    case ids =>
      by_cases hk' : k < h.plays.length
      · rw [List.getElem_append_left hk']
        exact hh.ids k hk'
      · obtain rfl : k = h.plays.length := by simp at hk; omega
        exact ⟨i, hlt, by simp [← hseed]⟩
    case slotted =>
      rw [List.getElem?_set] at hc
      split at hc
      · subst j
        cases hc
        unfold maxChannels at hlt
        simp only
        omega
      · exact hh.slotted j c hc
    case channels =>
      rw [List.filterMap_append]
      exact ((reduceOption_set_perm hslot _).trans (hh.channels.cons _)).trans (List.perm_append_singleton _ _).symm

theorem Holds.play (hh : h.Holds) (file : ByteArray) : (h.call (.play file)).Holds := by
  change (h.play file).Holds
  unfold History.play
  split
  · rename_i sound id m hload hm
    rw [Mixer.play, hload] at hm
    exact hh.start hm
  · exact hh

theorem Holds.call (hh : h.Holds) : ∀ c, (h.call c).Holds
  | .play file => hh.play file
  | .stop id => hh.stop id
  | .stopAll => hh.stopAll
  | .setStream stream => hh.setStream stream
  | .setVolume _ => hh.congr rfl rfl
  | .mix n => hh.mix n

theorem holds_ofCalls (outputRate : Nat) (calls : List Call) : (ofCalls outputRate calls).Holds := by
  have hrun : ∀ (calls : List Call) (h : History), h.Holds → (calls.foldl History.call h).Holds := by
    intro calls
    induction calls with
    | nil => exact fun _ hh => hh
    | cons c calls ih => exact fun h hh => ih _ (hh.call c)
  exact hrun calls _ (holds_ofRate outputRate)

/-! ### Ids -/

/-- As long as the number has not come round, no two plays have the same id. -/
theorem Holds.nodup (hh : h.Holds) (hfew : h.plays.length ≤ 0x10000) : (h.plays.map Play.id).Nodup := by
  refine List.pairwise_iff_getElem.mpr fun k l hk hl hlt => ?_
  simp only [List.length_map] at hk hl
  obtain ⟨i, hi, hidk⟩ := hh.ids k hk
  obtain ⟨j, hj, hidl⟩ := hh.ids l hl
  rw [List.getElem_map, List.getElem_map, hidk, hidl]
  unfold maxChannels at hi hj
  omega

theorem Holds.ne_noSound (hh : h.Holds) {p : Play} (hp : p ∈ h.plays) : p.id ≠ noSound := by
  have := hh.id_eq hp
  unfold noSound
  omega

/-- A sound of an id is heard when some play of that id is not over. -/
theorem Holds.isPlaying_iff (hh : h.Holds) (id : Int) :
    h.mixer.isPlaying id = true ↔ ∃ p ∈ h.plays, p.ended = false ∧ p.id = id := by
  rw [Mixer.isPlaying_iff hh.slotted]
  constructor
  · rintro ⟨c, hc, hid⟩
    obtain ⟨p, hp, hpc⟩ := List.mem_filterMap.mp (hh.channels.mem_iff.mp hc)
    unfold Play.channel? at hpc
    split at hpc
    · cases hpc
    · rename_i hended
      cases hpc
      exact ⟨p, hp, by simpa using hended, (hh.id_eq hp).symm.trans hid⟩
  · rintro ⟨p, hp, hended, hid⟩
    refine ⟨⟨p.id.toNat, p.sound⟩, hh.channels.mem_iff.mpr (List.mem_filterMap.mpr ⟨p, hp, ?_⟩), (hh.id_eq hp).trans hid⟩
    simp [Play.channel?, hended]

/-- A play can be told by its id. -/
theorem Holds.isPlaying_id (hh : h.Holds) (hfew : h.plays.length ≤ 0x10000) {p : Play} (hp : p ∈ h.plays) :
    h.mixer.isPlaying p.id = true ↔ p.ended = false := by
  rw [hh.isPlaying_iff]
  constructor
  · rintro ⟨q, hq, hended, hid⟩
    rwa [← List.inj_on_of_nodup_map (hh.nodup hfew) hq hp hid]
  · exact fun hended => ⟨p, hp, hended, rfl⟩

/-- No channel is free when as many plays are not over as there are channels. -/
theorem Holds.start_error_iff (hh : h.Holds) (sound : Wav) :
    (∃ e, h.mixer.start sound = .error e) ↔ h.plays.countP (!·.ended) = maxChannels := by
  have hcount : h.plays.countP (!·.ended) = h.mixer.channels.reduceOption.length := by
    rw [hh.channels.length_eq, List.length_filterMap_eq_countP]
    refine List.countP_congr fun p _ => ?_
    cases hended : p.ended <;> simp [Play.channel?, hended]
  have hfree : (∃ e, h.mixer.start sound = .error e) ↔ h.mixer.channels.findIdx? Option.isNone = none := by
    unfold Mixer.start
    cases h.mixer.channels.findIdx? Option.isNone <;> simp
  rw [hcount, ← hh.length, List.reduceOption_length_eq_iff, hfree, List.findIdx?_eq_none_iff]
  simp

end History

/-- The id of a sound is the name of one play. As long as not more sounds were started than there are
numbers, all ids differ, a sound is playing exactly while its play is not over, stopping one ends no other
play, and a sound that can be read cannot be started only when every channel has a play that goes on. -/
theorem ids_name_plays (outputRate : Nat) (calls : List Call)
    (hfew : (History.ofCalls outputRate calls).plays.length ≤ 0x10000) :
    let h := History.ofCalls outputRate calls
    (h.plays.map Play.id).Nodup ∧
      (∀ p ∈ h.plays, p.id ≠ noSound ∧ (h.mixer.isPlaying p.id = true ↔ p.ended = false)) ∧
      (∀ id, ∀ p ∈ h.plays, (h.mixer.stop id).isPlaying p.id = true ↔ p.id ≠ id ∧ p.ended = false) ∧
      ∀ file sound, Wav.load file h.mixer.outputRate = .ok sound →
        ((∃ e, h.mixer.play file = .error e) ↔ h.plays.countP (!·.ended) = maxChannels) := by
  intro h
  have hh : h.Holds := History.holds_ofCalls outputRate calls
  refine ⟨hh.nodup hfew, fun p hp => ⟨hh.ne_noSound hp, hh.isPlaying_id hfew hp⟩, fun id p hp => ?stop,
    fun file sound hload => ?play⟩
  case stop =>
    -- the plays after the call have the ids of those before it
    have hmem : (if p.id = id then p.stopped else p) ∈ (h.call (.stop id)).plays := List.mem_map_of_mem hp
    have hiff : (h.mixer.stop id).isPlaying _ = true ↔ _ :=
      (hh.stop id).isPlaying_id (by simpa [History.call] using hfew) hmem
    by_cases hid : p.id = id
    · rw [if_pos hid] at hiff
      simpa [hid, Play.stopped] using hiff
    · rw [if_neg hid] at hiff
      simpa [hid] using hiff
  case play =>
    rw [Mixer.play, hload]
    exact hh.start_error_iff _

/-- Two sounds of two moments; the first one is stopped, the last one starts late on its channel. -/
def twoPlays : List Call :=
  let file := Wav.file 1 22050 8 (Bytes.ofList [0x90, 0xA0])
  [.play file, .play file, .stop 16, .mix 1, .play file, .mix 1, .mix 1]

theorem ids_name_plays_twoPlays :
    (History.ofCalls 22050 twoPlays).plays.length ≤ 0x10000 ∧
      (History.ofCalls 22050 twoPlays).plays.map (fun p => (p.id, p.ended)) =
        [(16, true), (33, true), (48, false)] ∧
      ((History.ofCalls 22050 twoPlays).plays.map Play.id).Nodup :=
  ⟨by decide +kernel, by decide +kernel, (ids_name_plays 22050 twoPlays (by decide +kernel)).1⟩

end Mixer

end Adventure
