import Countersign.Crypto.Secp256k1
import Countersign.Crypto.Sha256
import Countersign.Crypto.Keccak

/-!
# Recoverable signatures

Signing a hash of 32 bytes and finding the signer again.

* A secret key is a number strictly between zero and the order of the group (`SecretKey`).
* `sign?` takes its one-time number from a chain of keyed hashes over the key and the hash, so equal
  inputs give equal signatures, and answers the smaller one of `s` and its negative.
* `recover?` gives the public point for which the signature holds, from the parity of the one-time
  point; it has none where `r` or `s` is out of range, or `r` is no first coordinate.
-/

namespace Countersign.Ecdsa

open Secp256k1

/-- **A secret key**: a number strictly between zero and the order of the group. -/
structure SecretKey where
  secret : Nat
  secret_pos : 0 < secret
  secret_lt : secret < order
deriving DecidableEq

/-- The secret key of 32 bytes, if they are in range. -/
def SecretKey.ofBytes? (bytes : Bytes) : Option SecretKey :=
  let n := Bytes.toNatBE bytes
  if h : bytes.length = 32 ∧ 0 < n ∧ n < order then some ⟨n, h.2.1, h.2.2⟩ else none

/-- The 32 bytes of a secret key. -/
def SecretKey.toBytes (key : SecretKey) : Bytes :=
  Bytes.ofNatBE 32 key.secret

/-- The public point of a secret key. -/
def SecretKey.publicPoint (key : SecretKey) : Point :=
  multiply key.secret generator

/-- **A signature with the parity of its one-time point.** -/
structure Signature where
  r : Nat
  s : Nat
  odd : Bool
deriving DecidableEq, Repr

/-! ### The one-time number -/

/-- The state of the chain of keyed hashes: its key and its last value. -/
structure Chain where
  key : Bytes
  value : Bytes

/-- One step that takes in more data behind a separating byte. -/
def Chain.feed (c : Chain) (separator : UInt8) (extra : Bytes) : Chain :=
  let key := Sha256.hmac c.key (c.value ++ separator :: extra)
  ⟨key, Sha256.hmac key c.value⟩

/-- The chain's start for a secret key and a hash, both as 32 bytes. -/
def Chain.start (key hash : Bytes) : Chain :=
  ((Chain.mk (List.replicate 32 0) (List.replicate 32 1)).feed 0 (key ++ hash)).feed 1 (key ++ hash)

/-- The next candidate for the one-time number. -/
def Chain.next (c : Chain) : Nat × Chain :=
  let value := Sha256.hmac c.key c.value
  (Bytes.toNatBE value, ⟨c.key, value⟩)

/-! ### Signing -/

/-- The signature under a one-time number, with the smaller one of `s` and its negative, if neither
`r` nor `s` is zero. Negating `s` turns the one-time point over, so the parity flips. -/
def signWith? (key : SecretKey) (z k : Nat) : Option Signature :=
  match multiply k generator with
  | .infinity => none
  | .affine x y =>
    let r := x % order
    let s := inverse order k * ((z + r * key.secret) % order) % order
    if r = 0 ∨ s = 0 then none
    else if order / 2 < s then some ⟨r, order - s, y % 2 != 1⟩
    else some ⟨r, s, y % 2 == 1⟩

/-- The first signature along the chain, within `attempts` candidates. -/
def signFrom? (key : SecretKey) (z : Nat) : (attempts : Nat) → Chain → Option Signature
  | 0, _ => none
  | attempts + 1, chain =>
    let (k, chain) := chain.next
    match if 0 < k ∧ k < order then signWith? key z k else none with
    | some signature => some signature
    | none => signFrom? key z attempts (chain.feed 0 [])

/-- The signature of a hash of 32 bytes. A candidate fails with a chance below `2 ^ -127`, so a
hundred of them never run out in practice. -/
def sign? (key : SecretKey) (hash : Bytes) : Option Signature :=
  let z := Bytes.toNatBE hash % order
  signFrom? key z 100 (.start key.toBytes (Bytes.ofNatBE 32 z))

/-! ### Recovery -/

/-- The public point for which a signature of the hash holds: `r⁻¹ (s R - z G)`, where `R` is the
one-time point. -/
def recover? (hash : Bytes) (signature : Signature) : Option Point :=
  let z := Bytes.toNatBE hash % order
  let inRange (a : Nat) : Bool := 0 < a && a < order
  if inRange signature.r && inRange signature.s then
    match lift? signature.r signature.odd with
    | none => none
    | some point =>
      let i := inverse order signature.r
      match combine ((order - z) * i % order) (signature.s * i % order) point with
      | .infinity => none
      | found => some found
  else none

end Countersign.Ecdsa
