import Countersign.Crypto.Sha256

/-!
# Keys from passwords

Two ways to make a password expensive to guess:

* `pbkdf2` repeats the keyed hash and adds all its outputs up;
* `scrypt` fills a large memory with blocks that depend on one another and reads it back in an
  order that the blocks decide, between two short runs of `pbkdf2`.

The mixing of `scrypt` works on blocks of `2 * r` pieces of 16 words, each piece passed through the
Salsa20/8 core.
-/

namespace Countersign.Stretching

/-! ### Repeated keyed hashing -/

/-- The sum of `rounds` more outputs after `last`, onto `sum`. -/
def iterate (key : Sha256.Key) : (rounds : Nat) → (last sum : Bytes) → Bytes
  | 0, _, sum => sum
  | rounds + 1, last, sum =>
    let next := key.authenticate last
    iterate key rounds next (Bytes.xor sum next)

/-- Password-based key derivation with `iterations` rounds of the keyed hash for each block of 32
bytes, cut to `length`. -/
def pbkdf2 (password salt : Bytes) (iterations length : Nat) : Bytes :=
  let key := Sha256.Key.ofBytes password
  let block (i : Nat) : Bytes :=
    let first := key.authenticate (salt ++ Bytes.ofNatBE 4 (i + 1))
    iterate key (iterations - 1) first first
  (((List.range ((length + 31) / 32)).map block).flatten).take length

/-! ### The memory-hard mixing -/

/-- Rotation to the left by `n` bits, `0 < n < 32`. -/
@[inline] def rotateLeft (x n : UInt32) : UInt32 :=
  (x <<< n) ||| (x >>> (32 - n))

/-- **Double rounds of the Salsa20 core**: each mixes the columns of the four by four square of
words and then its rows. -/
def doubleRounds : (count : Nat) →
    (x0 x1 x2 x3 x4 x5 x6 x7 x8 x9 x10 x11 x12 x13 x14 x15 : UInt32) → Array UInt32
  | 0, x0, x1, x2, x3, x4, x5, x6, x7, x8, x9, x10, x11, x12, x13, x14, x15 =>
    #[x0, x1, x2, x3, x4, x5, x6, x7, x8, x9, x10, x11, x12, x13, x14, x15]
  | count + 1, x0, x1, x2, x3, x4, x5, x6, x7, x8, x9, x10, x11, x12, x13, x14, x15 =>
    let x4 := x4 ^^^ rotateLeft (x0 + x12) 7
    let x8 := x8 ^^^ rotateLeft (x4 + x0) 9
    let x12 := x12 ^^^ rotateLeft (x8 + x4) 13
    let x0 := x0 ^^^ rotateLeft (x12 + x8) 18
    let x9 := x9 ^^^ rotateLeft (x5 + x1) 7
    let x13 := x13 ^^^ rotateLeft (x9 + x5) 9
    let x1 := x1 ^^^ rotateLeft (x13 + x9) 13
    let x5 := x5 ^^^ rotateLeft (x1 + x13) 18
    let x14 := x14 ^^^ rotateLeft (x10 + x6) 7
    let x2 := x2 ^^^ rotateLeft (x14 + x10) 9
    let x6 := x6 ^^^ rotateLeft (x2 + x14) 13
    let x10 := x10 ^^^ rotateLeft (x6 + x2) 18
    let x3 := x3 ^^^ rotateLeft (x15 + x11) 7
    let x7 := x7 ^^^ rotateLeft (x3 + x15) 9
    let x11 := x11 ^^^ rotateLeft (x7 + x3) 13
    let x15 := x15 ^^^ rotateLeft (x11 + x7) 18
    let x1 := x1 ^^^ rotateLeft (x0 + x3) 7
    let x2 := x2 ^^^ rotateLeft (x1 + x0) 9
    let x3 := x3 ^^^ rotateLeft (x2 + x1) 13
    let x0 := x0 ^^^ rotateLeft (x3 + x2) 18
    let x6 := x6 ^^^ rotateLeft (x5 + x4) 7
    let x7 := x7 ^^^ rotateLeft (x6 + x5) 9
    let x4 := x4 ^^^ rotateLeft (x7 + x6) 13
    let x5 := x5 ^^^ rotateLeft (x4 + x7) 18
    let x11 := x11 ^^^ rotateLeft (x10 + x9) 7
    let x8 := x8 ^^^ rotateLeft (x11 + x10) 9
    let x9 := x9 ^^^ rotateLeft (x8 + x11) 13
    let x10 := x10 ^^^ rotateLeft (x9 + x8) 18
    let x12 := x12 ^^^ rotateLeft (x15 + x14) 7
    let x13 := x13 ^^^ rotateLeft (x12 + x15) 9
    let x14 := x14 ^^^ rotateLeft (x13 + x12) 13
    let x15 := x15 ^^^ rotateLeft (x14 + x13) 18
    doubleRounds count x0 x1 x2 x3 x4 x5 x6 x7 x8 x9 x10 x11 x12 x13 x14 x15

/-- The Salsa20/8 core on 16 words: four double rounds, and the input added on. -/
def salsa (x : Array UInt32) : Array UInt32 :=
  let w (i : Nat) : UInt32 := x.getD i 0
  let mixed := doubleRounds 4 (w 0) (w 1) (w 2) (w 3) (w 4) (w 5) (w 6) (w 7) (w 8) (w 9) (w 10)
    (w 11) (w 12) (w 13) (w 14) (w 15)
  Array.zipWith (· + ·) mixed x

/-- The mixing of a block of `2 * r` pieces: each piece is added to the last result and passed
through the core; the even results come first, then the odd ones. -/
def blockMix (r : Nat) (block : Array (Array UInt32)) : Array (Array UInt32) :=
  let step (acc : Array UInt32 × Array (Array UInt32)) (piece : Array UInt32) :=
    let next := salsa (Array.zipWith (· ^^^ ·) acc.1 piece)
    (next, acc.2.push next)
  let results := (block.foldl step (block.getD (2 * r - 1) #[], Array.mkEmpty (2 * r))).2
  Array.ofFn fun i : Fin (2 * r) =>
    results.getD (if i.1 < r then 2 * i.1 else 2 * (i.1 - r) + 1) #[]

/-- Filling the memory with the block and what `count` mixings make of it; the last one is returned
apart. -/
def fill (r : Nat) : (count : Nat) → (memory : Array (Array (Array UInt32))) →
    (block : Array (Array UInt32)) → Array (Array (Array UInt32)) × Array (Array UInt32)
  | 0, memory, block => (memory, block)
  | count + 1, memory, block => fill r count (memory.push block) (blockMix r block)

/-- The word that picks the next memory cell: the low half of the block's last piece, its first
eight bytes read with the least significant first. -/
def index (r : Nat) (block : Array (Array UInt32)) : Nat :=
  let last := block.getD (2 * r - 1) #[]
  (last.getD 0 0).toNat + UInt32.size * (last.getD 1 0).toNat

/-- Reading the memory back `count` times: a block is added to the cell it picks, and mixed. -/
def revisit (r : Nat) (memory : Array (Array (Array UInt32))) : (count : Nat) →
    (block : Array (Array UInt32)) → Array (Array UInt32)
  | 0, block => block
  | count + 1, block =>
    let cell := memory.getD (index r block % memory.size) #[]
    let sum := Array.zipWith (fun a b => Array.zipWith (· ^^^ ·) a b) block cell
    revisit r memory count (blockMix r sum)

/-- The mixing of one lane of `128 * r` bytes through a memory of `n` blocks. -/
def romix (n r : Nat) (lane : Bytes) : Bytes :=
  let piece (bytes : Bytes) : Array UInt32 :=
    ((Bytes.chunks 4 16 bytes).map fun w => UInt32.ofNat (Bytes.toNatLE w)).toArray
  let block := ((Bytes.chunks 64 (2 * r) lane).map piece).toArray
  let (memory, block) := fill r n (Array.mkEmpty n) block
  let mixed := revisit r memory n block
  mixed.toList.flatMap fun piece => piece.toList.flatMap fun w => Bytes.ofNatLE 4 w.toNat

/-- Memory-hard key derivation with a memory of `n` blocks, blocks of `2 * r` pieces and `p`
lanes. -/
def scrypt (password salt : Bytes) (n r p length : Nat) : Bytes :=
  let lanes := pbkdf2 password salt 1 (p * 128 * r)
  let mixed := (Bytes.chunks (128 * r) p lanes).flatMap (romix n r)
  pbkdf2 password mixed 1 length

end Countersign.Stretching
