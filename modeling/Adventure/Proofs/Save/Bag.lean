import Adventure.Proofs.Save.RoundTrip

/-! The objects and the bag in the file of any game that is saved. A name may be cut at a zero, and a text that is too long
for its length may be cut somewhere else, so that not every game comes back as it was saved. Objects and the bag do but for
the cut of their names, if anything comes back: the name of the scene is the only text in front of them that can be too
long, and then the file is not read. -/

namespace Adventure

namespace Cursor

variable {ε : Type} [OfReadError ε]

/-- A text is read from as many bytes as its length says, wherever it ends. -/
theorem gives_anyString16 (n : Nat) {l : List UInt8} (hl : n % 65536 ≤ l.length) :
    Gives (string16 : ReadM ε String) (Text.ofField (Bytes.ofList (l.take (n % 65536))))
      (Bytes.word n.toUInt16 ++ l.take (n % 65536)) := by
  have hsize : (Bytes.ofList (l.take (n % 65536))).size = n.toUInt16.toNat := by
    rw [Bytes.size_ofList, List.length_take, Nat.min_eq_left hl]
    exact UInt16.toNat_ofNat'.symm
  have hread := Gives.map Text.ofField (gives_bytes (ε := ε) hsize)
  rw [Bytes.list_ofList] at hread
  exact (gives_u16 _).bind hread

end Cursor

namespace SaveState

open Cursor (Gives gives_i16 gives_u16 gives_u32 gives_bytes)

/-- The name of the music stands at the end of the file, where it can be cut. -/
theorem gives_cutMusic (m : SavedMusic) : ∃ m' k l, musicBytes m = k ++ l ∧ Gives (readMusic true) (some m') k := by
  have hlen : m.name.utf8ByteSize % 65536 ≤ (Text.bytes m.name).length := by
    rw [Text.length_bytes]
    exact Nat.mod_le _ _
  have htext := Cursor.gives_anyString16 (ε := SaveError) m.name.utf8ByteSize hlen
  have hskip : Gives (discard Cursor.u32 : ReadM SaveError Unit) () (Bytes.long m.track) :=
    (gives_u32 m.track).map fun _ => ()
  refine ⟨_, _, (Text.bytes m.name).drop (m.name.utf8ByteSize % 65536), ?_,
    hskip.bind ((gives_u32 m.track).bind (htext.map fun name => some (SavedMusic.mk m.track name)))⟩
  simp only [musicBytes, countBytes, List.append_assoc, List.take_append_drop]

/-! ### The file -/

variable {s s' : SaveState}

/-- A file is read up to the name of its music, with its bag, if the name of its scene has a length that fits. -/
theorem Orderly.gives (h : s.Orderly) (hw : s.Writable) (hlen : s.sceneName.utf8ByteSize + 1 < 65536) :
    ∃ s' k l, fileBytes s = k ++ l ∧ Gives (readFrom true) s' k ∧
      s'.objects = s.objects.map cutObject ∧ s'.bag = s.bag.map cutEntry ∧ s'.bagObject = s.bagObject ∧
      s'.bagAction = s.bagAction := by
  obtain ⟨m, k, l, hmusic, hm⟩ := gives_cutMusic (s.music.getD {})
  refine ⟨_, frontBytes s ++ k, l, ?_, h.gives_from hw hlen hm, rfl, rfl, rfl, rfl⟩
  rw [fileBytes_eq, hmusic, List.append_assoc]

/-- Two bytes that are not zero count more than there are objects. -/
theorem readCount_objects_ne {b₁ b₂ : UInt8} (h₁ : b₁ ≠ 0) (h₂ : b₂ ≠ 0) {c d : Cursor} {n : Nat}
    (hc : Bytes.Holds c.data c.pos [b₁, b₂]) : readCount "objects" maxObjects c ≠ .ok n d := by
  intro h
  have hpos₁ : b₁.toNat ≠ 0 := fun h => h₁ (UInt8.toNat_inj.mp h)
  have hpos₂ : b₂.toNat ≠ 0 := fun h => h₂ (UInt8.toNat_inj.mp h)
  obtain ⟨w, hw, hcount⟩ := Bytes.exists_word b₁ b₂
  obtain ⟨v, e, hv, h⟩ := bind_eq_ok.mp h
  rw [gives_u16 w c (hw ▸ hc)] at hv
  cases hv
  have hmany : maxObjects < w.toNat := by
    change 50 < w.toNat
    omega
  dsimp only at h
  rw [if_pos hmany] at h
  cases h

/-- No two bytes of a text without zeros are zero. -/
theorem exists_bytes_behind {name : String} (hname : Text.NoZero name) {k : Nat} (hk : k + 2 ≤ name.utf8ByteSize) :
    ∃ b₁ b₂ l, (Text.bytes name).drop k = b₁ :: b₂ :: l ∧ b₁ ≠ 0 ∧ b₂ ≠ 0 := by
  have hzero : 0 ∉ (Text.bytes name).drop k := fun h => hname.zero_notMem (List.mem_of_mem_drop h)
  have hlength : 2 ≤ ((Text.bytes name).drop k).length := by
    rw [List.length_drop, Text.length_bytes]
    omega
  generalize (Text.bytes name).drop k = l at hzero hlength
  rcases l with _ | ⟨b₁, _ | ⟨b₂, l⟩⟩
  · exact absurd hlength (by decide)
  · exact absurd hlength (by simp)
  · simp only [List.mem_cons, not_or] at hzero
    exact ⟨b₁, b₂, l, rfl, fun h => hzero.1 h.symm, fun h => hzero.2.1 h.symm⟩

/-- The name of a scene whose length does not fit is cut, and what stands behind the cut does not count objects. -/
theorem Orderly.fits (h : s.Orderly) (hname : Text.NoZero s.sceneName)
    (hread : read (Bytes.ofList (fileBytes s)) true = .ok s') : s.sceneName.utf8ByteSize + 1 < 65536 := by
  refine Nat.lt_of_not_le fun hlen => ?_
  obtain ⟨n, hn⟩ : ∃ n, n = s.sceneName.utf8ByteSize + 1 := ⟨_, rfl⟩
  obtain ⟨b₁, b₂, l, hbehind, h₁, h₂⟩ := exists_bytes_behind (k := n % 65536) hname (by omega)
  have htext (r : List UInt8) :
      Text.bytes s.sceneName ++ r = (Text.bytes s.sceneName).take (n % 65536) ++ ([b₁, b₂] ++ (l ++ r)) :=
    calc Text.bytes s.sceneName ++ r
        = (Text.bytes s.sceneName).take (n % 65536) ++ (Text.bytes s.sceneName).drop (n % 65536) ++ r := by
          rw [List.take_append_drop]
      _ = (Text.bytes s.sceneName).take (n % 65536) ++ ([b₁, b₂] ++ (l ++ r)) := by
          rw [hbehind, List.append_assoc]
          rfl
  have hfits : n % 65536 ≤ (Text.bytes s.sceneName).length := by
    rw [Text.length_bytes]
    omega
  have hheader : Gives readHeaderFrom ⟨s.defaultVars, _⟩ (tableBytes wordBytes s.defaultVars ++
      (Bytes.word n.toUInt16 ++ (Text.bytes s.sceneName).take (n % 65536))) :=
    (gives_words "default vars" h.defaultVars (by decide)).bind ((Cursor.gives_anyString16 n hfits).map _)
  obtain ⟨r, hfile⟩ : ∃ r, fileBytes s = (tableBytes wordBytes s.defaultVars ++
      (Bytes.word n.toUInt16 ++ (Text.bytes s.sceneName).take (n % 65536))) ++ ([b₁, b₂] ++ r) := by
    obtain ⟨r, hr⟩ : ∃ r, fileBytes s = headerBytes s ++ r := ⟨_, rfl⟩
    refine ⟨l ++ ([0] ++ r), ?_⟩
    rw [hr, headerBytes, ← hn, countBytes, htext]
    simp only [List.append_assoc]
  have hown := Bytes.holds_list (Bytes.ofList (fileBytes s))
  rw [Bytes.list_ofList, hfile] at hown
  have hrun := hheader ⟨_, 0⟩ hown.left
  rw [hfile, read, Cursor.run] at hread
  split at hread
  · rename_i hfrom
    obtain ⟨header, c, hfirst, hfrom⟩ := bind_eq_ok.mp hfrom
    cases hrun.symm.trans hfirst
    obtain ⟨n, d, hcount, -⟩ := bind_eq_ok.mp hfrom
    exact readCount_objects_ne h₁ h₂ hown.right.left hcount
  · cases hread

/-- The objects and the bag are read with their names cut, if the length of the scene's name fits. -/
theorem Orderly.names_read (h : s.Orderly) (hw : s.Writable) (hlen : s.sceneName.utf8ByteSize + 1 < 65536)
    (hread : read (Bytes.ofList (fileBytes s)) true = .ok s') :
    s'.objects = s.objects.map cutObject ∧ s'.bag = s.bag.map cutEntry ∧ s'.bagObject = s.bagObject ∧
      s'.bagAction = s.bagAction := by
  obtain ⟨t, k, l, hfile, hgives, hnames⟩ := h.gives hw hlen
  have ht : read (Bytes.ofList (fileBytes s)) true = .ok t := hfile ▸ hgives.run l
  cases hread.symm.trans ht
  exact hnames

end SaveState

end Adventure
