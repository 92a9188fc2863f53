import Countersign.Bytes

/-!
# The curve `y² = x³ + 7`

The group that accounts sign in: the points of `y² = x³ + 7` over the field of `fieldOrder`
elements, of prime order `order`, generated by `generator`.

Sums are computed on *weighted* points `(x, y, z)`, which stand for `(x / z², y / z³)`, so that a
multiple of a point (`multiply`) takes one division, at the end (`Weighted.toPoint`). A point is
found again from its first coordinate and the parity of the second by `lift?`.
-/

namespace Countersign.Secp256k1

/-- The order of the field. -/
def fieldOrder : Nat := 0xfffffffffffffffffffffffffffffffffffffffffffffffffffffffefffffc2f

/-- The order of the group. -/
def order : Nat := 0xfffffffffffffffffffffffffffffffebaaedce6af48a03bbfd25e8cd0364141

/-! ### Arithmetic modulo a number -/

/-- A power modulo `m`, by the low `bits` bits of the exponent, the least significant first. -/
def powMod (m : Nat) : (bits : Nat) → (base exponent acc : Nat) → Nat
  | 0, _, _, acc => acc
  | bits + 1, base, exponent, acc =>
    powMod m bits (base * base % m) (exponent / 2)
      (if exponent % 2 = 1 then acc * base % m else acc)

/-- The inverse modulo a prime: the power to the prime less two. -/
def inverse (prime a : Nat) : Nat :=
  powMod prime 256 (a % prime) (prime - 2) 1

/-- The difference of two reduced numbers modulo `m`. -/
def subMod (m a b : Nat) : Nat :=
  (a + (m - b)) % m

/-! ### Points -/

/-- **A point of the group**: the neutral one, or one with coordinates. -/
inductive Point where
  | infinity
  | affine (x y : Nat)
deriving DecidableEq, Repr

/-- The generator. -/
def generator : Point :=
  .affine 0x79be667ef9dcbbac55a06295ce870b07029bfcdb2dce28d959f2815b16f81798
    0x483ada7726a3c4655da4fbfc0e1108a8fd17b448a68554199c47d08ffb10d4b8

/-- **A weighted point**, standing for `(x / z², y / z³)`; the neutral one has `z = 0`. -/
structure Weighted where
  x : Nat
  y : Nat
  z : Nat

namespace Weighted

/-- The neutral point. -/
def zero : Weighted := ⟨1, 1, 0⟩

/-- A point with weight one. -/
def ofPoint : Point → Weighted
  | .infinity => zero
  | .affine x y => ⟨x, y, 1⟩

/-- The point that a weighted point stands for. -/
def toPoint (a : Weighted) : Point :=
  if a.z = 0 then .infinity
  else
    let i := inverse fieldOrder a.z
    let i2 := i * i % fieldOrder
    .affine (a.x * i2 % fieldOrder) (a.y * (i2 * i % fieldOrder) % fieldOrder)

/-- Twice a point. -/
def double (a : Weighted) : Weighted :=
  let p := fieldOrder
  let yy := a.y * a.y % p
  let s := 4 * a.x * yy % p
  let m := 3 * a.x * a.x % p
  let x := subMod p (m * m % p) (2 * s % p)
  let y := subMod p (m * subMod p s x % p) (8 * yy * yy % p)
  ⟨x, y, 2 * a.y * a.z % p⟩

/-- **The sum of two points.** Where both are the same point it is twice that point, and where they
are opposite it is the neutral one. -/
def add (a b : Weighted) : Weighted :=
  if a.z = 0 then b
  else if b.z = 0 then a
  else
    let p := fieldOrder
    let za := a.z * a.z % p
    let zb := b.z * b.z % p
    -- Both points brought to the weight of their product.
    let u1 := a.x * zb % p
    let u2 := b.x * za % p
    let s1 := a.y * (zb * b.z % p) % p
    let s2 := b.y * (za * a.z % p) % p
    if u1 = u2 then if s1 = s2 then double a else zero
    else
      -- The slope through the two is `r / h`, and `h` becomes part of the weight.
      let h := subMod p u2 u1
      let r := subMod p s2 s1
      let hh := h * h % p
      let hhh := hh * h % p
      let v := u1 * hh % p
      let x := subMod p (subMod p (r * r % p) hhh) (2 * v % p)
      let y := subMod p (r * subMod p v x % p) (s1 * hhh % p)
      ⟨x, y, h * (a.z * b.z % p) % p⟩

/-- A multiple of a point, by the low `bits` bits of the factor, the most significant first. -/
def multiply (factor : Nat) (a : Weighted) : (bits : Nat) → (acc : Weighted) → Weighted
  | 0, acc => acc
  | bits + 1, acc =>
    let twice := double acc
    multiply factor a bits (if factor.testBit bits then add twice a else twice)

end Weighted

/-- `factor` times a point, for a factor below `2 ^ 256`. -/
def multiply (factor : Nat) (a : Point) : Point :=
  (Weighted.multiply factor (.ofPoint a) 256 .zero).toPoint

/-- `k` times the generator plus `l` times a point. -/
def combine (k l : Nat) (a : Point) : Point :=
  (Weighted.add (Weighted.multiply k (.ofPoint generator) 256 .zero)
    (Weighted.multiply l (.ofPoint a) 256 .zero)).toPoint

/-- The point of first coordinate `x` whose second one is odd or even as asked, if the curve has
one. The field's order is 3 modulo 4, so a square root is a power. -/
def lift? (x : Nat) (odd : Bool) : Option Point :=
  let square := (x * x % fieldOrder * x + 7) % fieldOrder
  let root := powMod fieldOrder 256 square ((fieldOrder + 1) / 4) 1
  if x < fieldOrder ∧ root * root % fieldOrder = square then
    some (.affine x (if (root % 2 == 1) == odd then root else fieldOrder - root))
  else none

end Countersign.Secp256k1
