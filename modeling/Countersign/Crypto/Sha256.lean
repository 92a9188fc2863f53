import Countersign.Bytes

/-!
# SHA-256 and its keyed form

The hash that deterministic nonces and password keys are made with. A message is padded with a bit,
zeros and its length in bits, and cut into blocks of 64 bytes; `compress` folds one block into a
`State` of eight words, and `hash` writes the last state. `hmac` is the keyed hash over it.

Both have 32 bytes (`length_hash`, `length_hmac`).
-/

namespace Countersign.Sha256

/-- **The eight words of a running hash.** -/
structure State where
  a : UInt32
  b : UInt32
  c : UInt32
  d : UInt32
  e : UInt32
  f : UInt32
  g : UInt32
  h : UInt32
deriving DecidableEq

/-- The state before the first block: fractional bits of the square roots of the first eight
primes. -/
def State.initial : State :=
  ⟨0x6a09e667, 0xbb67ae85, 0x3c6ef372, 0xa54ff53a,
   0x510e527f, 0x9b05688c, 0x1f83d9ab, 0x5be0cd19⟩

/-- The round constants: fractional bits of the cube roots of the first 64 primes. -/
def roundConstants : Array UInt32 :=
  #[0x428a2f98, 0x71374491, 0xb5c0fbcf, 0xe9b5dba5, 0x3956c25b, 0x59f111f1, 0x923f82a4, 0xab1c5ed5,
   0xd807aa98, 0x12835b01, 0x243185be, 0x550c7dc3, 0x72be5d74, 0x80deb1fe, 0x9bdc06a7, 0xc19bf174,
   0xe49b69c1, 0xefbe4786, 0x0fc19dc6, 0x240ca1cc, 0x2de92c6f, 0x4a7484aa, 0x5cb0a9dc, 0x76f988da,
   0x983e5152, 0xa831c66d, 0xb00327c8, 0xbf597fc7, 0xc6e00bf3, 0xd5a79147, 0x06ca6351, 0x14292967,
   0x27b70a85, 0x2e1b2138, 0x4d2c6dfc, 0x53380d13, 0x650a7354, 0x766a0abb, 0x81c2c92e, 0x92722c85,
   0xa2bfe8a1, 0xa81a664b, 0xc24b8b70, 0xc76c51a3, 0xd192e819, 0xd6990624, 0xf40e3585, 0x106aa070,
   0x19a4c116, 0x1e376c08, 0x2748774c, 0x34b0bcb5, 0x391c0cb3, 0x4ed8aa4a, 0x5b9cca4f, 0x682e6ff3,
   0x748f82ee, 0x78a5636f, 0x84c87814, 0x8cc70208, 0x90befffa, 0xa4506ceb, 0xbef9a3f7, 0xc67178f2]

/-- Rotation to the right by `n` bits, `0 < n < 32`. -/
@[inline] def rotateRight (x n : UInt32) : UInt32 :=
  (x >>> n) ||| (x <<< (32 - n))

/-- The message schedule. From 16 words of a block on, each word is made of four earlier ones, until
`count` more have been added. -/
def schedule : (count : Nat) → Array UInt32 → Array UInt32
  | 0, w => w
  | count + 1, w =>
    let at' (back : Nat) : UInt32 := w.getD (w.size - back) 0
    let x := at' 15
    let y := at' 2
    let s0 := rotateRight x 7 ^^^ rotateRight x 18 ^^^ (x >>> 3)
    let s1 := rotateRight y 17 ^^^ rotateRight y 19 ^^^ (y >>> 10)
    schedule count (w.push (at' 16 + s0 + at' 7 + s1))

/-- The last `left` of the 64 rounds. -/
def rounds (w : Array UInt32) : (left : Nat) → (a b c d e f g h : UInt32) → State
  | 0, a, b, c, d, e, f, g, h => ⟨a, b, c, d, e, f, g, h⟩
  | left + 1, a, b, c, d, e, f, g, h =>
    let i := 63 - left
    let s1 := rotateRight e 6 ^^^ rotateRight e 11 ^^^ rotateRight e 25
    let choose := (e &&& f) ^^^ (~~~ e &&& g)
    let t1 := h + s1 + choose + roundConstants.getD i 0 + w.getD i 0
    let s0 := rotateRight a 2 ^^^ rotateRight a 13 ^^^ rotateRight a 22
    let majority := (a &&& b) ^^^ (a &&& c) ^^^ (b &&& c)
    rounds w left (t1 + (s0 + majority)) a b c (d + t1) e f g

/-- One block folded in. -/
def compress (s : State) (block : Bytes) : State :=
  let words := ((Bytes.chunks 4 16 block).map fun w => UInt32.ofNat (Bytes.toNatBE w)).toArray
  let t := rounds (schedule 48 words) 64 s.a s.b s.c s.d s.e s.f s.g s.h
  ⟨s.a + t.a, s.b + t.b, s.c + t.c, s.d + t.d, s.e + t.e, s.f + t.f, s.g + t.g, s.h + t.h⟩

/-- Padding of a message's tail when `total` bytes are hashed altogether. -/
def pad (total : Nat) (tail : Bytes) : Bytes :=
  let used := (tail.length + 9) % 64
  tail ++ 0x80 :: (List.replicate ((64 - used) % 64) 0 ++ Bytes.ofNatBE 8 (8 * total))

/-- The words of a state, in writing order. -/
def State.toBytes (s : State) : Bytes :=
  [s.a, s.b, s.c, s.d, s.e, s.f, s.g, s.h].flatMap fun w => Bytes.ofNatBE 4 w.toNat

/-- The rest of a hash whose first `before` bytes, a whole number of blocks, are already in the
state. -/
def finish (s : State) (before : Nat) (tail : Bytes) : Bytes :=
  let padded := pad (before + tail.length) tail
  ((Bytes.chunks 64 (padded.length / 64) padded).foldl compress s).toBytes

/-- The SHA-256 digest, 32 bytes. -/
def hash (message : Bytes) : Bytes :=
  finish .initial 0 message

/-- A key of the keyed hash, made ready: the states after its inner and its outer block. -/
structure Key where
  inner : State
  outer : State

/-- Making a key ready. A key longer than a block is hashed first, a shorter one is filled up with
zeros; the inner block is it plus `0x36`, the outer one it plus `0x5c`, bytewise. -/
def Key.ofBytes (key : Bytes) : Key :=
  let block := Bytes.padRight 64 (if 64 < key.length then hash key else key)
  ⟨compress .initial (block.map (· ^^^ 0x36)), compress .initial (block.map (· ^^^ 0x5c))⟩

/-- The keyed hash under a ready key. -/
def Key.authenticate (key : Key) (message : Bytes) : Bytes :=
  finish key.outer 64 (finish key.inner 64 message)

/-- The keyed hash, 32 bytes. -/
def hmac (key message : Bytes) : Bytes :=
  (Key.ofBytes key).authenticate message

@[simp] theorem State.length_toBytes (s : State) : s.toBytes.length = 32 := by
  simp [State.toBytes]

@[simp] theorem length_hash (message : Bytes) : (hash message).length = 32 := by
  simp [hash, finish]

@[simp] theorem length_hmac (key message : Bytes) : (hmac key message).length = 32 := by
  simp [hmac, Key.authenticate, finish]

end Countersign.Sha256
