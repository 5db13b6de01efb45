import Adventure.Codec.Lzss
import Adventure.Proofs.Bytes.Fields
import Adventure.Proofs.Within
import Mathlib.Logic.Relation

/-! Decoding step by step, with at most one byte of output in a step, whatever the data are. The
decoder comes to an end, every byte that it copies is there already, and its output never gets far
beyond the declared size. -/

namespace Adventure.Lzss

/-! ### Steps -/

/-- What the decoder does next. The block that it reads has `units` behind it, at `pos`. -/
inductive Phase where
  | block (units pos : Nat)
  | token (units pos : Nat) (s : Source)
  | copy (units pos : Nat) (s : Source) (distance size : Nat)

structure State where
  phase : Phase
  out : ByteArray

variable {src : ByteArray} {limit : Nat}

/-- The next state, or the result. -/
abbrev Next := State ⊕ Except CodecError ByteArray

def stepBlock (src : ByteArray) (units pos : Nat) (out : ByteArray) : Next :=
  if units = 0 then .inr (.ok out)
  else
    match checkBlock src pos (min units blockUnits) with
    | .error e => .inr (.error e)
    | .ok () =>
      .inl ⟨.token (units - min units blockUnits) (pos + blockSize) (Source.refill src (pos + 2)), out⟩

def stepToken (src : ByteArray) (limit units pos : Nat) (s : Source) (out : ByteArray) : Next :=
  if limit < out.size then .inr (.error (.tooLong limit))
  else
    match readToken src s with
    | .error e => .inr (.error e)
    | .ok (.literal b, t) => .inl ⟨.token units pos t, out.push b⟩
    | .ok (.idle, t) => .inl ⟨.token units pos t, out⟩
    | .ok (.copy distance size, t) =>
      if out.size < distance then .inr (.error (.reference distance out.size))
      else .inl ⟨.copy units pos t distance size, out⟩
    | .ok (.endBlock, _) => .inl ⟨.block units pos, out⟩
    | .ok (.endData, _) => .inr (.ok out)

/-- Copies one byte, if there is one left to copy. -/
def stepCopy (units pos : Nat) (s : Source) (distance : Nat) (out : ByteArray) : Nat → State
  | 0 => ⟨.token units pos s, out⟩
  | size + 1 => ⟨.copy units pos s distance size, out.push (Bytes.at0 out (out.size - distance))⟩

def step (src : ByteArray) (limit : Nat) : State → Next
  | ⟨.block units pos, out⟩ => stepBlock src units pos out
  | ⟨.token units pos s, out⟩ => stepToken src limit units pos s out
  | ⟨.copy units pos s distance size, out⟩ => .inl (stepCopy units pos s distance out size)

/-- The decoder gets from one state to another. -/
def Passes (src : ByteArray) (limit : Nat) : State → State → Prop :=
  Relation.ReflTransGen fun a b => step src limit a = .inl b

/-- The decoder comes to an end with a result. -/
def EndsWith (src : ByteArray) (limit : Nat) (a : State) (r : Except CodecError ByteArray) : Prop :=
  ∃ b, Passes src limit a b ∧ step src limit b = .inr r

/-! ### The steps come to what is decoded -/

theorem Passes.endsWith {a b : State} {r : Except CodecError ByteArray} (h : Passes src limit a b)
    (hb : EndsWith src limit b r) : EndsWith src limit a r := by
  obtain ⟨c, hc, hend⟩ := hb
  exact ⟨c, h.trans hc, hend⟩

theorem passes_step {a b : State} (h : step src limit a = .inl b) : Passes src limit a b := .single h

theorem endsWith_step {a : State} {r : Except CodecError ByteArray} (h : step src limit a = .inr r) :
    EndsWith src limit a r := ⟨a, .refl, h⟩

theorem passes_copy (units pos : Nat) (s : Source) (distance size : Nat) (out : ByteArray) :
    Passes src limit ⟨.copy units pos s distance size, out⟩
      ⟨.token units pos s, copyBack distance size out⟩ := by
  induction size generalizing out with
  | zero => exact passes_step rfl
  | succ size ih => exact (passes_step rfl).trans (ih _)

/-- A block ends the data, or leads on to the next block. -/
theorem endsWith_tokens {units pos : Nat} (s : Source) (out : ByteArray)
    {rest : ByteArray → Except CodecError ByteArray}
    (hrest : ∀ out, EndsWith src limit ⟨.block units pos, out⟩ (rest out)) :
    EndsWith src limit ⟨.token units pos s, out⟩
      (match decodeTokens src limit s out with
        | .error e => .error e
        | .ok (out, true) => .ok out
        | .ok (out, false) => rest out) := by
  have hstep (s : Source) (out : ByteArray) :
      step src limit ⟨.token units pos s, out⟩ = stepToken src limit units pos s out := rfl
  fun_induction decodeTokens src limit s out with
  | case1 s out hlong =>
    exact endsWith_step (by rw [hstep, stepToken, if_pos hlong])
  | case2 s out hlen e hread =>
    exact endsWith_step (by rw [hstep, stepToken, if_neg hlen, hread])
  | case3 s out hlen b t hread _ ih =>
    exact (passes_step (by rw [hstep, stepToken, if_neg hlen, hread])).endsWith ih
  | case4 s out hlen t hread _ ih =>
    exact (passes_step (by rw [hstep, stepToken, if_neg hlen, hread])).endsWith ih
  | case5 s out hlen distance size t hread _ hfar =>
    exact endsWith_step (by rw [hstep, stepToken, if_neg hlen, hread]; exact if_pos hfar)
  | case6 s out hlen distance size t hread _ hnear ih =>
    have hcopy : step src limit ⟨.token units pos s, out⟩ = .inl ⟨.copy units pos t distance size, out⟩ := by
      rw [hstep, stepToken, if_neg hlen, hread]
      exact if_neg hnear
    exact (passes_step hcopy).endsWith ((passes_copy units pos t distance size out).endsWith ih)
  | case7 s out hlen t hread =>
    exact (passes_step (by rw [hstep, stepToken, if_neg hlen, hread])).endsWith (hrest out)
  | case8 s out hlen t hread =>
    exact endsWith_step (by rw [hstep, stepToken, if_neg hlen, hread])

/-- The steps from a block on come to what is decoded from there. -/
theorem endsWith_blocks (units pos : Nat) (out : ByteArray) :
    EndsWith src limit ⟨.block units pos, out⟩ (decodeBlocks src limit units pos out) := by
  induction units using Nat.strongRecOn generalizing pos out with
  | ind units ih =>
    have hstep : step src limit ⟨.block units pos, out⟩ = stepBlock src units pos out := rfl
    rw [decodeBlocks]
    by_cases hunits : units = 0
    · rw [if_pos hunits]
      exact endsWith_step (by rw [hstep, stepBlock, if_pos hunits])
    rw [if_neg hunits]
    cases hcheck : checkBlock src pos (min units blockUnits) with
    | error e => exact endsWith_step (by rw [hstep, stepBlock, if_neg hunits, hcheck])
    | ok =>
      have hfewer : units - min units blockUnits < units := by
        unfold blockUnits
        omega
      have htokens := endsWith_tokens (Source.refill src (pos + 2)) out fun out =>
        ih _ hfewer (pos + blockSize) out
      refine (passes_step (by rw [hstep, stepBlock, if_neg hunits, hcheck])).endsWith ?_
      dsimp only
      split <;> rename_i h <;> rw [h] at htokens <;> exact htokens

/-! ### Tokens -/

/-- The most bytes that a token stands for. -/
def maxToken : Nat := 256

theorem one_le_longDistance (code : UInt16) : 1 ≤ longDistance code := by
  have hhigh : ((code >>> 3) &&& 0x1F00).toNat < 2 ^ 13 := by
    rw [UInt16.toNat_and]
    exact Nat.lt_of_le_of_lt Nat.and_le_right (by decide)
  have hlow : (code &&& 0xFF).toNat < 2 ^ 13 := by
    rw [UInt16.toNat_and]
    exact Nat.lt_of_le_of_lt Nat.and_le_right (by decide)
  have hor := Nat.or_lt_two_pow hhigh hlow
  rw [← UInt16.toNat_or] at hor
  unfold longDistance
  omega

/-- A token stands for a copy that the decoder can make once there is enough output. -/
def Token.Fair : Token → Prop
  | .copy distance size => 1 ≤ distance ∧ size ≤ maxToken
  | _ => True

theorem fair_ofLengthByte {distance : Nat} (h : 1 ≤ distance) (n : UInt8) : (ofLengthByte distance n).Fair := by
  unfold ofLengthByte
  split
  · trivial
  split
  · trivial
  split
  · trivial
  · exact ⟨h, n.toNat_lt⟩

variable {s t : Source} {k : Token}

theorem fair_readLong (h : readLong src s = .ok (k, t)) : k.Fair := by
  unfold readLong at h
  split at h
  · cases h
  · rename_i code s₁ hword
    split at h
    · split at h
      · cases h
      · cases h
        exact fair_ofLengthByte (one_le_longDistance code) _
    · cases h
      refine ⟨one_le_longDistance code, ?_⟩
      have hfield : ((code >>> 8) &&& 7).toNat ≤ 7 := by
        rw [UInt16.toNat_and]
        exact Nat.and_le_right
      unfold maxToken
      omega

theorem fair_readShort (h : readShort src s = .ok (k, t)) : k.Fair := by
  unfold readShort at h
  dsimp only at h
  split at h
  · cases h
  · rename_i d s₁ hbyte
    cases h
    have hd := d.toNat_lt
    have hhigh := Bool.toNat_le (s.bit src).1
    have hlow := Bool.toNat_le ((s.bit src).2.bit src).1
    unfold Token.Fair maxToken
    omega

theorem fair_readToken (h : readToken src s = .ok (k, t)) : k.Fair := by
  unfold readToken at h
  dsimp only at h
  split at h
  · unfold readLiteral at h
    split at h
    · cases h
    · cases h
      trivial
  · split at h
    · exact fair_readLong h
    · exact fair_readShort h

/-! ### What a step keeps -/

/-- A byte that is copied is there, and what is copied fits. -/
def State.Sound (limit : Nat) : State → Prop
  | ⟨.block _ _, out⟩ => out.size ≤ limit + maxToken
  | ⟨.token _ _ _, out⟩ => out.size ≤ limit + maxToken
  | ⟨.copy _ _ _ distance size, out⟩ => 1 ≤ distance ∧ distance ≤ out.size ∧ out.size + size ≤ limit + maxToken

theorem State.Sound.stepBlock {units pos : Nat} {out : ByteArray} {b : State}
    (h : State.Sound limit ⟨.block units pos, out⟩) (hb : stepBlock src units pos out = .inl b) : b.Sound limit := by
  unfold Lzss.stepBlock at hb
  split at hb
  · cases hb
  · split at hb
    · cases hb
    · cases hb
      exact h

/-- Output that is not too long yet leaves room for what a token stands for. -/
theorem State.Sound.stepToken {units pos : Nat} {out : ByteArray} {b : State}
    (hb : stepToken src limit units pos s out = .inl b) : b.Sound limit := by
  unfold Lzss.stepToken at hb
  split at hb
  · cases hb
  rename_i hlen
  split at hb
  · cases hb
  · cases hb
    change (out.push _).size ≤ _
    rw [ByteArray.size_push]
    unfold maxToken
    omega
  · cases hb
    exact Nat.le_add_right_of_le (Nat.not_lt.mp hlen)
  · rename_i distance size t hread
    obtain ⟨hdistance, hsize⟩ := fair_readToken hread
    split at hb
    · cases hb
    · rename_i hnear
      cases hb
      exact ⟨hdistance, Nat.not_lt.mp hnear, Nat.add_le_add (Nat.not_lt.mp hlen) hsize⟩
  · cases hb
    exact Nat.le_add_right_of_le (Nat.not_lt.mp hlen)
  · cases hb

theorem State.Sound.stepCopy {units pos distance size : Nat} {out : ByteArray}
    (h : State.Sound limit ⟨.copy units pos s distance size, out⟩) :
    (stepCopy units pos s distance out size).Sound limit := by
  obtain ⟨hdistance, hnear, hfits⟩ := h
  cases size with
  | zero => exact hfits
  | succ size =>
    change 1 ≤ distance ∧ distance ≤ (out.push _).size ∧ (out.push _).size + size ≤ _
    rw [ByteArray.size_push]
    omega

theorem State.Sound.step {a b : State} (h : a.Sound limit) (hb : step src limit a = .inl b) : b.Sound limit := by
  obtain ⟨phase, out⟩ := a
  cases phase with
  | block units pos => exact h.stepBlock hb
  | token units pos s => exact State.Sound.stepToken hb
  | copy units pos s distance size =>
    cases hb
    exact h.stepCopy

theorem State.Sound.passes {a b : State} (h : a.Sound limit) (hb : Passes src limit a b) : b.Sound limit := by
  induction hb with
  | refl => exact h
  | tail _ hstep ih => exact ih.step hstep

theorem State.Sound.size_le {a : State} (h : a.Sound limit) : a.out.size ≤ limit + maxToken := by
  obtain ⟨phase, out⟩ := a
  cases phase with
  | block units pos => exact h
  | token units pos s => exact h
  | copy units pos s distance size =>
    obtain ⟨-, -, hfits⟩ := h
    exact Nat.le_trans (Nat.le_add_right _ _) hfits

/-! ### Any data -/

/-- The declared size and the number of units, if the size can be right. -/
def header (src : ByteArray) : Except CodecError (Nat × Nat) :=
  match Bytes.le32? src 0, Bytes.le32? src 4 with
  | some declared, some units =>
    let limit := min (src.size * maxRatio) maxDecodedSize
    if limit < declared.toNat then .error (.declaredSize declared.toNat src.size limit)
    else .ok (declared.toNat, units.toNat)
  | _, _ => .error (.noHeader src.size)

/-- Behind its header a resource is decoded block by block. -/
theorem decode_eq (src : ByteArray) :
    decode src = (header src).bind fun h => (decodeBlocks src h.1 h.2 8 ByteArray.empty).bind (finish h.1) := by
  unfold decode header
  cases Bytes.le32? src 0 with
  | none => rfl
  | some declared =>
    cases Bytes.le32? src 4 with
    | none => rfl
    | some units =>
      dsimp only
      split
      · rfl
      · simp only [Except.bind]
        cases decodeBlocks src declared.toNat units.toNat 8 ByteArray.empty <;> rfl

theorem header_ok {declared units : Nat} (h : header src = .ok (declared, units)) :
    declaredSize? src = some declared ∧ declared ≤ min (80 * src.size) (16 * 1024 * 1024) := by
  unfold header at h
  unfold declaredSize?
  split at h
  · rename_i n _ hn _
    dsimp only at h
    split at h
    · cases h
    · rename_i hlimit
      cases h
      rw [hn, Nat.mul_comm]
      exact ⟨rfl, Nat.not_lt.mp hlimit⟩
  · cases h

theorem finish_ok {declared : Nat} {produced out : ByteArray} (h : finish declared produced = .ok out) :
    out.size = declared ∧ Bytes.list out = Bytes.list produced ++ List.replicate (declared - produced.size) 0 := by
  unfold finish at h
  split at h
  · cases h
  · rename_i hlen
    cases h
    refine ⟨?_, Bytes.list_pushN _ _ _⟩
    rw [← Bytes.length_list, Bytes.list_pushN, List.length_append, List.length_replicate, Bytes.length_list]
    omega

/-- Whatever the data are, the decoder comes to an end. On its way each byte that it copies is one that
it has produced, and its output is never longer than declared by more than a token's. If it gives
something, that has the declared size, which the data can account for, and is what was produced with
zeros behind it. -/
theorem decode_safe (src : ByteArray) :
    match header src with
    | .error e => decode src = .error e
    | .ok (declared, units) =>
      declaredSize? src = some declared ∧ declared ≤ min (80 * src.size) (16 * 1024 * 1024) ∧
      (∀ a, Passes src declared ⟨.block units 8, ByteArray.empty⟩ a → a.out.size ≤ declared + 256 ∧
        ∀ units pos s distance size, a.phase = .copy units pos s distance size →
          1 ≤ distance ∧ distance ≤ a.out.size) ∧
      ∃ r, EndsWith src declared ⟨.block units 8, ByteArray.empty⟩ r ∧ decode src = r.bind (finish declared) ∧
        ∀ out, decode src = .ok out → ∃ produced, r = .ok produced ∧ out.size = declared ∧
          Bytes.list out = Bytes.list produced ++ List.replicate (declared - produced.size) 0 := by
  cases hheader : header src with
  | error e =>
    dsimp only
    rw [decode_eq, hheader]
    rfl
  | ok h =>
    obtain ⟨declared, units⟩ := h
    obtain ⟨hdeclared, hlimit⟩ := header_ok hheader
    have hdecode : decode src = (decodeBlocks src declared units 8 ByteArray.empty).bind (finish declared) := by
      rw [decode_eq, hheader]
      rfl
    have hfirst : State.Sound declared ⟨.block units 8, ByteArray.empty⟩ := Nat.zero_le _
    refine ⟨hdeclared, hlimit, fun a ha => ?_, _, endsWith_blocks units 8 ByteArray.empty, hdecode, ?_⟩
    · have hsound := hfirst.passes ha
      refine ⟨hsound.size_le, fun units pos s distance size hphase => ?_⟩
      obtain ⟨phase, out⟩ := a
      cases hphase
      exact ⟨hsound.1, hsound.2.1⟩
    · intro out hout
      obtain ⟨produced, hproduced, hfinish⟩ := except_bind_eq_ok.mp (hdecode.symm.trans hout)
      exact ⟨produced, hproduced, finish_ok hfinish⟩

/-- The bytes `aaaa`: the first one, and a copy of three. -/
def aaaa : ByteArray :=
  Bytes.ofList [4, 0, 0, 0, 1, 0, 0, 0, 0xFA, 0x4B, 0x51, 0, 0x61, 0xFF, 0, 0, 0, 0, 0, 0, 0, 0, 0, 0]

theorem decode_safe_aaaa :
    ∃ units pos s out, Passes aaaa 4 ⟨.block 1 8, ByteArray.empty⟩ ⟨.copy units pos s 1 3, out⟩ ∧
      1 ≤ out.size ∧ out.size ≤ 4 + 256 := by
  have hpasses : Passes aaaa 4 ⟨.block 1 8, ByteArray.empty⟩ ⟨.copy 0 4104 _ 1 3, ByteArray.empty.push 0x61⟩ :=
    (passes_step rfl).trans ((passes_step rfl).trans (passes_step rfl))
  obtain ⟨hsize, hcopy⟩ := (decode_safe aaaa).2.2.1 _ hpasses
  exact ⟨_, _, _, _, hpasses, (hcopy _ _ _ _ _ rfl).2, hsize⟩

end Adventure.Lzss
