import Countersign.Bytes

/-!
# AES-128 as a key stream

The block cipher behind encrypted key files, used only to encrypt a counter: `counterMode` adds the
encrypted counter blocks to a message, so it both encrypts and decrypts.

A block is a list of 16 bytes in column order. Bytes are elements of the field of 256 elements with
the modulus `x⁸ + x⁴ + x³ + x + 1`; the substitution of a byte is its inverse followed by an affine
map over bits.
-/

namespace Countersign.Aes

/-- Multiplication by `x` in the field. -/
def timesX (a : UInt8) : UInt8 :=
  if a &&& 0x80 = 0 then a <<< 1 else (a <<< 1) ^^^ 0x1b

/-- Multiplication in the field, by the low `bits` bits of the second factor. -/
def multiply : (bits : Nat) → UInt8 → UInt8 → UInt8
  | 0, _, _ => 0
  | bits + 1, a, b => (if b &&& 1 = 1 then a else 0) ^^^ multiply bits (timesX a) (b >>> 1)

/-- The inverse in the field, zero for zero: the power to 254. -/
def inverse (a : UInt8) : UInt8 :=
  let m := multiply 8
  let a2 := m a a
  let a4 := m a2 a2
  let a8 := m a4 a4
  let a16 := m a8 a8
  let a32 := m a16 a16
  let a64 := m a32 a32
  let a128 := m a64 a64
  m (m (m a2 a4) (m a8 a16)) (m (m a32 a64) a128)

/-- Rotation of a byte to the left. -/
def rotate (a n : UInt8) : UInt8 :=
  (a <<< n) ||| (a >>> (8 - n))

/-- The substitution of each byte. -/
def substitutions : Array UInt8 :=
  Array.ofFn fun i : Fin 256 =>
    let a := inverse (UInt8.ofNat i.1)
    a ^^^ rotate a 1 ^^^ rotate a 2 ^^^ rotate a 3 ^^^ rotate a 4 ^^^ 0x63

/-- The substitution of a byte. -/
def substitute (a : UInt8) : UInt8 :=
  substitutions.getD a.toNat 0

/-! ### Round keys -/

/-- The next round key from the last one and the round's constant. -/
def nextKey (constant : UInt8) (key : Bytes) : Bytes :=
  let word (i : Nat) : Bytes := (key.drop (4 * i)).take 4
  let turned := ((word 3).drop 1 ++ (word 3).take 1).map substitute
  let w0 := Bytes.xor (Bytes.xor (word 0) turned) [constant, 0, 0, 0]
  let w1 := Bytes.xor (word 1) w0
  let w2 := Bytes.xor (word 2) w1
  let w3 := Bytes.xor (word 3) w2
  w0 ++ w1 ++ w2 ++ w3

/-- The keys of `count` further rounds. -/
def expand : (count : Nat) → (constant : UInt8) → Bytes → List Bytes
  | 0, _, _ => []
  | count + 1, constant, key =>
    let next := nextKey constant key
    next :: expand count (timesX constant) next

/-! ### Encryption of a block -/

/-- Row `i` moves `i` columns to the left. -/
def shiftRows (block : Bytes) : Bytes :=
  (List.range 16).map fun i => (block[(i + 4 * (i % 4)) % 16]?).getD 0

/-- The mixing of one column. -/
def mixColumn (column : Bytes) : Bytes :=
  let at' (i : Nat) : UInt8 := (column[i % 4]?).getD 0
  (List.range 4).map fun i =>
    timesX (at' i) ^^^ (timesX (at' (i + 1)) ^^^ at' (i + 1)) ^^^ at' (i + 2) ^^^ at' (i + 3)

/-- The mixing of all four columns. -/
def mixColumns (block : Bytes) : Bytes :=
  (Bytes.chunks 4 4 block).flatMap mixColumn

/-- The rounds after the first key; the last one mixes no columns. -/
def rounds : List Bytes → Bytes → Bytes
  | [], block => block
  | [last], block => Bytes.xor (shiftRows (block.map substitute)) last
  | key :: keys, block =>
    rounds keys (Bytes.xor (mixColumns (shiftRows (block.map substitute))) key)

/-- The encryption of a block of 16 bytes under a key of 16 bytes. -/
def encryptBlock (key block : Bytes) : Bytes :=
  rounds (expand 10 1 key) (Bytes.xor block key)

/-- Adding the key stream. The `i`-th block of 16 bytes is added to the encryption of the start
value plus `i`, a big-endian number of 128 bits. -/
def counterMode (key start message : Bytes) : Bytes :=
  let blocks := Bytes.chunks 16 ((message.length + 15) / 16) message
  (blocks.zipIdx.map fun (block, i) =>
    Bytes.xor block (encryptBlock key (Bytes.ofNatBE 16 (Bytes.toNatBE start + i)))).flatten

end Countersign.Aes
