import Mathlib.Data.List.GetD
import Mathlib.Data.Vector.Basic
import SorobanDevkit.Library.Bytes

/-!
# SHA-256

The hash function of FIPS 180-4 on lists of bytes. A message is padded to blocks of sixteen words,
and each block is mixed into eight words of state in sixty-four rounds. The words of the message
schedule are made on the way: a window of sixteen of them is kept.
-/

namespace Sha256

/-- The first 32 bits of the fractional parts of the cube roots of the first 64 primes. -/
def constants : List UInt32 :=
  [0x428a2f98, 0x71374491, 0xb5c0fbcf, 0xe9b5dba5, 0x3956c25b, 0x59f111f1, 0x923f82a4, 0xab1c5ed5,
    0xd807aa98, 0x12835b01, 0x243185be, 0x550c7dc3, 0x72be5d74, 0x80deb1fe, 0x9bdc06a7, 0xc19bf174,
    0xe49b69c1, 0xefbe4786, 0x0fc19dc6, 0x240ca1cc, 0x2de92c6f, 0x4a7484aa, 0x5cb0a9dc, 0x76f988da,
    0x983e5152, 0xa831c66d, 0xb00327c8, 0xbf597fc7, 0xc6e00bf3, 0xd5a79147, 0x06ca6351, 0x14292967,
    0x27b70a85, 0x2e1b2138, 0x4d2c6dfc, 0x53380d13, 0x650a7354, 0x766a0abb, 0x81c2c92e, 0x92722c85,
    0xa2bfe8a1, 0xa81a664b, 0xc24b8b70, 0xc76c51a3, 0xd192e819, 0xd6990624, 0xf40e3585, 0x106aa070,
    0x19a4c116, 0x1e376c08, 0x2748774c, 0x34b0bcb5, 0x391c0cb3, 0x4ed8aa4a, 0x5b9cca4f, 0x682e6ff3,
    0x748f82ee, 0x78a5636f, 0x84c87814, 0x8cc70208, 0x90befffa, 0xa4506ceb, 0xbef9a3f7, 0xc67178f2]

/-- The eight words of state. -/
structure State where
  a : UInt32
  b : UInt32
  c : UInt32
  d : UInt32
  e : UInt32
  f : UInt32
  g : UInt32
  h : UInt32
  deriving DecidableEq

/-- The first 32 bits of the fractional parts of the square roots of the first 8 primes. -/
def State.initial : State :=
  ⟨0x6a09e667, 0xbb67ae85, 0x3c6ef372, 0xa54ff53a, 0x510e527f, 0x9b05688c, 0x1f83d9ab, 0x5be0cd19⟩

/-- Rotation to the right. -/
def rotr (x n : UInt32) : UInt32 := (x >>> n) ||| (x <<< (32 - n))

/-- One round. -/
def round (s : State) (k w : UInt32) : State :=
  let choice := (s.e &&& s.f) ^^^ (~~~s.e &&& s.g)
  let majority := (s.a &&& s.b) ^^^ (s.a &&& s.c) ^^^ (s.b &&& s.c)
  let t₁ := s.h + (rotr s.e 6 ^^^ rotr s.e 11 ^^^ rotr s.e 25) + choice + k + w
  let t₂ := (rotr s.a 2 ^^^ rotr s.a 13 ^^^ rotr s.a 22) + majority
  ⟨t₁ + t₂, s.a, s.b, s.c, s.d + t₁, s.e, s.f, s.g⟩

/-- The word of the schedule that is sixteen after `w`, of which `rest` are the fifteen after it. -/
def nextWord (w : UInt32) (rest : List UInt32) : UInt32 :=
  let w₁ := rest.getD 0 0
  let w₁₄ := rest.getD 13 0
  (rotr w₁₄ 17 ^^^ rotr w₁₄ 19 ^^^ (w₁₄ >>> 10)) + rest.getD 8 0 +
    (rotr w₁ 7 ^^^ rotr w₁ 18 ^^^ (w₁ >>> 3)) + w

/-- The rounds with the given constants, on a window of the schedule. -/
def rounds : (constants window : List UInt32) → State → State
  | k :: ks, w :: rest, s => rounds ks (rest ++ [nextWord w rest]) (round s k w)
  | _, _, s => s

/-- A block is mixed into the state. -/
def compress (s : State) (block : List UInt32) : State :=
  let t := rounds constants block s
  ⟨s.a + t.a, s.b + t.b, s.c + t.c, s.d + t.d, s.e + t.e, s.f + t.f, s.g + t.g, s.h + t.h⟩

/-- The words of bytes, four bytes each. -/
def words : List UInt8 → List UInt32
  | a :: b :: c :: d :: bytes => UInt32.ofNat (ofBigEndian [a, b, c, d]) :: words bytes
  | _ => []

/-- The message with a one, zeros and its length in bits. -/
def pad (message : List UInt8) : List UInt8 :=
  message ++ 0x80 :: List.replicate ((119 - message.length % 64) % 64) 0 ++
    bigEndian 8 (8 * message.length)

/-- The blocks are mixed in one after the other. -/
def compressAll : (blocks : ℕ) → List UInt32 → State → State
  | 0, _, s => s
  | blocks + 1, ws, s => compressAll blocks (ws.drop 16) (compress s (ws.take 16))

/-- The words of the hash. -/
def hashWords (message : List UInt8) : State :=
  let ws := words (pad message)
  compressAll (ws.length / 16) ws State.initial

-- the hash of "abc"
example : hashWords [0x61, 0x62, 0x63] =
    ⟨0xba7816bf, 0x8f01cfea, 0x414140de, 0x5dae2223, 0xb00361a3, 0x96177a9c, 0xb410ff61,
      0xf20015ad⟩ := by
  decide +kernel

/-- The hash. -/
def digest (message : List UInt8) : Vector UInt8 32 :=
  let s := hashWords message
  let bytes := [s.a, s.b, s.c, s.d, s.e, s.f, s.g, s.h].flatMap fun w => bigEndian 4 w.toNat
  Vector.ofFn fun i => bytes.getD i 0

end Sha256
