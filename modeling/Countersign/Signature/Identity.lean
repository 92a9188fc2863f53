import Countersign.Crypto.Ecdsa
import Countersign.Signature.Vrs
import Countersign.Signature.Error

/-!
# Signing identities

An identity signs digests with a secret key until it is locked. A digest is not signed as it is, but
behind a fixed text that keeps signatures apart from those of transactions (`personalHash`).

Locking forgets the key; the address stays known (`Identity.lock`).
-/

namespace Countersign

/-- The hash that is signed for a digest: of the digest behind a fixed text, which also says how
many bytes follow. -/
def personalHash (digest : Word) : Bytes :=
  Keccak.hash (Bytes.ofText "\x19Ethereum Signed Message:\n32" ++ digest.toBytes)

/-- The address of a public point: the last 20 bytes of the hash of its coordinates. The neutral
point has no coordinates. -/
def Address.ofPoint? : Secp256k1.Point → Option Address
  | .infinity => none
  | .affine x y =>
    some (.ofBytes ((Keccak.hash (Bytes.ofNatBE 32 x ++ Bytes.ofNatBE 32 y)).drop 12))

/-- The address of a secret key. A secret key is no multiple of the group's order, so its public
point is not the neutral one. -/
def Address.ofKey (key : Ecdsa.SecretKey) : Address :=
  (Address.ofPoint? key.publicPoint).getD .zero

/-- **Somebody who can sign**, as long as the key is there. The address is kept beside it, and
outlives it. -/
structure Identity where
  address : Address
  key : Option Ecdsa.SecretKey
deriving DecidableEq

namespace Identity

/-- The identity of a key, with the address that belongs to it. -/
def ofKey (key : Ecdsa.SecretKey) : Identity :=
  ⟨Address.ofKey key, some key⟩

/-- Whether the key is still there. -/
def isUnlocked (identity : Identity) : Bool :=
  identity.key.isSome

/-- Forgetting the key. There is no way back. -/
def lock (identity : Identity) : Identity :=
  { identity with key := none }

/-- The signature of a digest, as 65 bytes in parts. Without a key it fails, and nothing else is
tried. -/
def sign (identity : Identity) (digest : Word) : Except SignatureError Vrs :=
  match identity.key with
  | none => .error .keyUnavailable
  | some key =>
    match Ecdsa.sign? key (personalHash digest) with
    | none => .error (.signer "no suitable one-time number")
    | some signature =>
      .ok ⟨if signature.odd then 28 else 27, BitVec.ofNat 256 signature.r,
        BitVec.ofNat 256 signature.s⟩

/-- An identity as shown to a person, without its key. -/
def describe (identity : Identity) : String :=
  "SigningIdentity \x7b address: " ++ identity.address.render ++ ", unlocked: " ++
    (if identity.isUnlocked then "true" else "false") ++ " \x7d"

@[simp] theorem isUnlocked_lock (identity : Identity) : identity.lock.isUnlocked = false := rfl

/-- Without its key an identity signs nothing. -/
theorem sign_of_isUnlocked_eq_false {identity : Identity} {digest : Word}
    (h : identity.isUnlocked = false) : identity.sign digest = .error .keyUnavailable := by
  rw [sign, Option.isSome_eq_false_iff.mp h |> Option.isNone_iff_eq_none.mp]

end Identity

end Countersign
