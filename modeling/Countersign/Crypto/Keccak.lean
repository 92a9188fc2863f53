import Countersign.Bytes

/-!
# Keccak-256

The sponge hash of the bridge contract: the permutation of 25 lanes of 64 bits, a rate of 136
bytes, and the padding that starts with the byte `0x01`. Lane `x + 5 * y` stands in column `x` of
row `y`, and a lane reads its eight bytes with the least significant one first.

`Keccak.hash` absorbs the padded message block by block and squeezes one digest of 32 bytes.
-/

namespace Countersign.Keccak

/-- The 25 lanes. -/
abbrev Lanes := Vector UInt64 25

/-- The round constants that the last step of each of the 24 rounds adds to lane 0. -/
def roundConstants : List UInt64 :=
  [0x0000000000000001, 0x0000000000008082, 0x800000000000808a, 0x8000000080008000,
   0x000000000000808b, 0x0000000080000001, 0x8000000080008081, 0x8000000000008009,
   0x000000000000008a, 0x0000000000000088, 0x0000000080008009, 0x000000008000000a,
   0x000000008000808b, 0x800000000000008b, 0x8000000000008089, 0x8000000000008003,
   0x8000000000008002, 0x8000000000000080, 0x000000000000800a, 0x800000008000000a,
   0x8000000080008081, 0x8000000000008080, 0x0000000080000001, 0x8000000080008008]

/-- The rotation of each lane, by lane number. -/
def rotations : Vector UInt64 25 :=
  #v[0, 1, 62, 28, 27, 36, 44, 6, 55, 20, 3, 10, 43, 25, 39, 41, 45, 15, 21, 8, 18, 2, 61, 56, 14]

/-- Rotation to the left. A rotation by nothing is the identity. -/
def rotateLeft (lane n : UInt64) : UInt64 :=
  if n = 0 then lane else (lane <<< n) ||| (lane >>> (64 - n))

/-- Column parities, and what each lane takes from its neighbouring columns. -/
def theta (a : Lanes) : Lanes :=
  let parity : Vector UInt64 5 := Vector.ofFn fun x =>
    a[x.1] ^^^ a[x.1 + 5] ^^^ a[x.1 + 10] ^^^ a[x.1 + 15] ^^^ a[x.1 + 20]
  let mix : Vector UInt64 5 := Vector.ofFn fun x =>
    have before : (x.1 + 4) % 5 < 5 := Nat.mod_lt _ (by decide)
    have behind : (x.1 + 1) % 5 < 5 := Nat.mod_lt _ (by decide)
    parity[(x.1 + 4) % 5] ^^^ rotateLeft parity[(x.1 + 1) % 5] 1
  Vector.ofFn fun i =>
    have column : i.1 % 5 < 5 := Nat.mod_lt _ (by decide)
    a[i] ^^^ mix[i.1 % 5]

/-- Rotation and transport. The lane at column `x`, row `y` comes from column `x + 3 * y`, row
`x`. -/
def rhoPi (a : Lanes) : Lanes :=
  Vector.ofFn fun i =>
    let x := i.1 % 5
    let y := i.1 / 5
    let source := (x + 3 * y) % 5 + 5 * x
    have h : source < 25 := by
      have := i.2
      have : x < 5 := Nat.mod_lt _ (by decide)
      have : (x + 3 * y) % 5 < 5 := Nat.mod_lt _ (by decide)
      omega
    rotateLeft a[source] rotations[source]

/-- The nonlinear step along each row. -/
def chi (a : Lanes) : Lanes :=
  Vector.ofFn fun i =>
    let row := 5 * (i.1 / 5)
    have h1 : row + (i.1 + 1) % 5 < 25 := by
      have := i.2; have := Nat.mod_lt (i.1 + 1) (show 0 < 5 by decide); omega
    have h2 : row + (i.1 + 2) % 5 < 25 := by
      have := i.2; have := Nat.mod_lt (i.1 + 2) (show 0 < 5 by decide); omega
    a[i] ^^^ (~~~ a[row + (i.1 + 1) % 5] &&& a[row + (i.1 + 2) % 5])

/-- One round. -/
def round (a : Lanes) (constant : UInt64) : Lanes :=
  let b := chi (rhoPi (theta a))
  b.set 0 (b[0] ^^^ constant)

/-- The permutation: 24 rounds. -/
def permute (a : Lanes) : Lanes :=
  roundConstants.foldl round a

/-- The bytes of a block per application of the permutation. -/
def rate : Nat := 136

/-- Padding. A byte `0x01`, zeros, and the top bit of the last byte, up to a whole number of blocks;
where one byte is left it is `0x81`. -/
def pad (message : Bytes) : Bytes :=
  let room := rate - message.length % rate
  if room = 1 then message ++ [0x81]
  else message ++ 0x01 :: (List.replicate (room - 2) 0 ++ [0x80])

/-- Absorbing a block: its lanes are added to the first lanes of the state. -/
def absorb (a : Lanes) (block : Bytes) : Lanes :=
  let words := ((Bytes.chunks 8 17 block).map fun w => UInt64.ofNat (Bytes.toNatLE w)).toArray
  permute (Vector.ofFn fun i => a[i] ^^^ words[i.1]?.getD 0)

/-- The Keccak-256 digest, 32 bytes. -/
def hash (message : Bytes) : Bytes :=
  let padded := pad message
  let state := (Bytes.chunks rate (padded.length / rate) padded).foldl absorb
    (Vector.replicate 25 0)
  (state.toList.take 4).flatMap fun lane => Bytes.ofNatLE 8 lane.toNat

theorem length_flatMap_of_forall {α : Type} (f : α → Bytes) (n : Nat) (l : List α)
    (h : ∀ x ∈ l, (f x).length = n) : (l.flatMap f).length = l.length * n := by
  induction l with
  | nil => simp
  | cons x l ih =>
    have hx := h x (by simp)
    have hl := ih fun y hy => h y (by simp [hy])
    simp [List.flatMap_cons, hx, hl, Nat.add_mul]; omega

/-- A digest has 32 bytes. -/
@[simp] theorem length_hash (message : Bytes) : (hash message).length = 32 := by
  unfold hash
  rw [length_flatMap_of_forall _ 8 _ (by intros; simp)]
  simp

end Countersign.Keccak
