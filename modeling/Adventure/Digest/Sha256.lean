import Adventure.Bytes.Basic

/-! The SHA-256 digest of a byte buffer. The message is padded to whole blocks of
64 bytes; each block is spread to 64 words and mixed into eight words of state. -/

namespace Adventure.Sha256

def roundConstants : Array UInt32 := #[
  0x428a2f98, 0x71374491, 0xb5c0fbcf, 0xe9b5dba5, 0x3956c25b, 0x59f111f1, 0x923f82a4, 0xab1c5ed5,
  0xd807aa98, 0x12835b01, 0x243185be, 0x550c7dc3, 0x72be5d74, 0x80deb1fe, 0x9bdc06a7, 0xc19bf174,
  0xe49b69c1, 0xefbe4786, 0x0fc19dc6, 0x240ca1cc, 0x2de92c6f, 0x4a7484aa, 0x5cb0a9dc, 0x76f988da,
  0x983e5152, 0xa831c66d, 0xb00327c8, 0xbf597fc7, 0xc6e00bf3, 0xd5a79147, 0x06ca6351, 0x14292967,
  0x27b70a85, 0x2e1b2138, 0x4d2c6dfc, 0x53380d13, 0x650a7354, 0x766a0abb, 0x81c2c92e, 0x92722c85,
  0xa2bfe8a1, 0xa81a664b, 0xc24b8b70, 0xc76c51a3, 0xd192e819, 0xd6990624, 0xf40e3585, 0x106aa070,
  0x19a4c116, 0x1e376c08, 0x2748774c, 0x34b0bcb5, 0x391c0cb3, 0x4ed8aa4a, 0x5b9cca4f, 0x682e6ff3,
  0x748f82ee, 0x78a5636f, 0x84c87814, 0x8cc70208, 0x90befffa, 0xa4506ceb, 0xbef9a3f7, 0xc67178f2]

/-- The eight words of state. -/
structure State where
  a : UInt32
  b : UInt32
  c : UInt32
  d : UInt32
  e : UInt32
  f : UInt32
  g : UInt32
  h : UInt32

def start : State :=
  ⟨0x6a09e667, 0xbb67ae85, 0x3c6ef372, 0xa54ff53a, 0x510e527f, 0x9b05688c, 0x1f83d9ab, 0x5be0cd19⟩

@[inline] def rotr (x : UInt32) (n : UInt32) : UInt32 := (x >>> n) ||| (x <<< (32 - n))

/-- The word of four bytes at `i`, high byte first. -/
def word (m : ByteArray) (i : Nat) : UInt32 :=
  ((Bytes.at0 m i).toUInt32 <<< 24) ||| ((Bytes.at0 m (i + 1)).toUInt32 <<< 16)
    ||| ((Bytes.at0 m (i + 2)).toUInt32 <<< 8) ||| (Bytes.at0 m (i + 3)).toUInt32

/-- The first `n` words of the block at `i`. -/
def blockWords (m : ByteArray) (i : Nat) : Nat → Array UInt32
  | 0 => Array.emptyWithCapacity 64
  | n + 1 => (blockWords m i n).push (word m (i + 4 * n))

@[inline] def at0 (w : Array UInt32) (i : Nat) : UInt32 := if h : i < w.size then w[i] else 0

/-- Appends `n` words to the schedule, each made of four earlier ones. -/
def extend : Nat → Array UInt32 → Array UInt32
  | 0, w => w
  | n + 1, w =>
    let t := w.size
    let x := at0 w (t - 15)
    let y := at0 w (t - 2)
    let s₀ := rotr x 7 ^^^ rotr x 18 ^^^ (x >>> 3)
    let s₁ := rotr y 17 ^^^ rotr y 19 ^^^ (y >>> 10)
    extend n (w.push (at0 w (t - 16) + s₀ + at0 w (t - 7) + s₁))

/-- Runs `n` rounds from round `i` on. -/
def rounds (w : Array UInt32) : Nat → Nat → UInt32 → UInt32 → UInt32 → UInt32 → UInt32 → UInt32 → UInt32 → UInt32 → State
  | 0, _, a, b, c, d, e, f, g, h => ⟨a, b, c, d, e, f, g, h⟩
  | n + 1, i, a, b, c, d, e, f, g, h =>
    let s₁ := rotr e 6 ^^^ rotr e 11 ^^^ rotr e 25
    let ch := (e &&& f) ^^^ (~~~e &&& g)
    let t₁ := h + s₁ + ch + at0 roundConstants i + at0 w i
    let s₀ := rotr a 2 ^^^ rotr a 13 ^^^ rotr a 22
    let maj := (a &&& b) ^^^ (a &&& c) ^^^ (b &&& c)
    rounds w n (i + 1) (t₁ + (s₀ + maj)) a b c (d + t₁) e f g

def compress (m : ByteArray) (i : Nat) (s : State) : State :=
  let w := extend 48 (blockWords m i 16)
  let r := rounds w 64 0 s.a s.b s.c s.d s.e s.f s.g s.h
  ⟨s.a + r.a, s.b + r.b, s.c + r.c, s.d + r.d, s.e + r.e, s.f + r.f, s.g + r.g, s.h + r.h⟩

def blocks (m : ByteArray) : Nat → Nat → State → State
  | 0, _, s => s
  | n + 1, i, s => blocks m n (i + 64) (compress m i s)

/-- The message, a one bit, zeros up to a block border less eight bytes, and the
length in bits. -/
def pad (m : ByteArray) : ByteArray :=
  let zeros := (119 - m.size % 64) % 64
  let bits := (8 * m.size).toUInt64
  (List.range 8).foldl (fun (b : ByteArray) k => b.push (bits >>> (56 - 8 * k).toUInt64).toUInt8)
    (Bytes.pushN (m.push 0x80) 0 zeros)

def State.words (s : State) : List UInt32 := [s.a, s.b, s.c, s.d, s.e, s.f, s.g, s.h]

def digest (m : ByteArray) : ByteArray :=
  let p := pad m
  (blocks p (p.size / 64) 0 start).words.foldl
    (fun (b : ByteArray) (x : UInt32) => (((b.push (x >>> 24).toUInt8).push (x >>> 16).toUInt8).push (x >>> 8).toUInt8).push x.toUInt8)
    ByteArray.empty

/-- The digest in hexadecimal. -/
def hexDigest (m : ByteArray) : String := Bytes.hex (digest m)

end Adventure.Sha256
