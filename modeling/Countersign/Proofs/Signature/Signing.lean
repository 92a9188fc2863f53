import Countersign.Proofs.Signature.Canonical

/-!
# What an identity signs

An identity signs the hash of a digest, and puts the result into the form that is written: the two
numbers as words, and the parity of the one-time point as a recovery byte. Whether the signer is
found again depends on what signing yields (`Ecdsa.Signature.Recovers`): numbers in range, `s` in
the lower half, and the parity with which recovery leads back to the signer's address. If this is
so, then nothing is lost in the written form: the signature is canonical
(`Identity.canonical_of_sign`), and its text verifies for the address of the identity
(`Identity.verifyText_of_sign`).
-/

namespace Countersign

/-- **A signature from which its signer is found again**, with `s` in the lower half. -/
structure Ecdsa.Signature.Recovers (signature : Ecdsa.Signature) (hash : Bytes) (signer : Address) :
    Prop where
  r_lt : signature.r < Secp256k1.order
  s_pos : 0 < signature.s
  s_le : signature.s ≤ Secp256k1.order / 2
  recovered : (Ecdsa.recover? hash signature).bind Address.ofPoint? = some signer

namespace Identity

variable {identity : Identity} {digest : Word} {x : Vrs}

/-- The signer of a digest is found again, if the identity signs it at all. It is a condition on one
digest, and can be computed for a given key. -/
def Recovers (identity : Identity) (digest : Word) : Prop :=
  ∀ key signature, identity.key = some key →
    Ecdsa.sign? key (personalHash digest) = some signature →
    signature.Recovers (personalHash digest) identity.address

/-- Signing by any means that make a signature of a hash. What becomes of the signature does not
depend on how it was made, so the arithmetic is a parameter here. -/
def signBy (makes : Ecdsa.SecretKey → Bytes → Option Ecdsa.Signature) (identity : Identity)
    (digest : Word) : Except SignatureError Vrs :=
  match identity.key with
  | none => .error .keyUnavailable
  | some key =>
    match makes key (personalHash digest) with
    | none => .error (.signer "no suitable one-time number")
    | some signature =>
      .ok ⟨if signature.odd then 28 else 27, BitVec.ofNat 256 signature.r,
        BitVec.ofNat 256 signature.s⟩

/-- An identity signs by the arithmetic of the curve. -/
theorem sign_eq_signBy (identity : Identity) (digest : Word) :
    identity.sign digest = identity.signBy Ecdsa.sign? digest := rfl

/-- **A signature is written** without loss, if it is in range: the words have the two numbers, and
the recovery byte has the parity. -/
theorem exists_signature_of_signBy {makes : Ecdsa.SecretKey → Bytes → Option Ecdsa.Signature}
    (h : identity.signBy makes digest = .ok x)
    (hmakes : ∀ key signature, identity.key = some key →
      makes key (personalHash digest) = some signature →
      signature.Recovers (personalHash digest) identity.address) :
    ∃ signature : Ecdsa.Signature, signature.Recovers (personalHash digest) identity.address ∧
      (x.v = 27 ∨ x.v = 28) ∧ (x.v == 28) = signature.odd ∧ x.r.toNat = signature.r ∧
      x.s.toNat = signature.s := by
  unfold signBy at h
  split at h
  · cases h
  next key hkey =>
  split at h
  · cases h
  next signature hsignature =>
  obtain rfl := Except.ok.inj h
  have hfound := hmakes key signature hkey hsignature
  have horder : Secp256k1.order < 2 ^ 256 := by decide
  have hr := hfound.r_lt
  have hs := hfound.s_le
  refine ⟨signature, hfound, ?_, ?_, ?_, ?_⟩
  · cases signature.odd
    · exact Or.inl rfl
    · exact Or.inr rfl
  · cases signature.odd <;> rfl
  · rw [BitVec.toNat_ofNat, Nat.mod_eq_of_lt (by omega)]
  · rw [BitVec.toNat_ofNat, Nat.mod_eq_of_lt (by omega)]

/-- What an identity gives is canonical, so it is accepted wherever signatures are read. -/
theorem canonical_of_sign (h : identity.sign digest = .ok x)
    (hrecovers : identity.Recovers digest) : x.Canonical := by
  rw [sign_eq_signBy] at h
  obtain ⟨signature, hfound, hv, -, -, hs⟩ := exists_signature_of_signBy h hrecovers
  refine ⟨hv, ?_, ?_⟩
  · rw [hs]
    exact hfound.s_pos
  · rw [hs]
    exact hfound.s_le

/-- The text of a signature verifies for the identity that gave it, and so for its address. -/
theorem verifyText_of_sign (h : identity.sign digest = .ok x)
    (hrecovers : identity.Recovers digest) :
    verifyText digest x.render identity.address = .ok () := by
  have hcanonical := canonical_of_sign h hrecovers
  rw [sign_eq_signBy] at h
  obtain ⟨signature, hfound, -, hodd, hr, hs⟩ := exists_signature_of_signBy h hrecovers
  refine verifyText_render hcanonical ?_
  rw [Vrs.signer?, hr, hs, hodd]
  exact hfound.recovered

/-- With a key a digest is signed, if a signature of its hash can be made. A locked identity signs
nothing. -/
theorem exists_signBy {makes : Ecdsa.SecretKey → Bytes → Option Ecdsa.Signature}
    {key : Ecdsa.SecretKey} {signature : Ecdsa.Signature} (hkey : identity.key = some key)
    (hmakes : makes key (personalHash digest) = some signature) :
    ∃ x, identity.signBy makes digest = .ok x := by
  unfold signBy
  rw [hkey]
  dsimp only
  rw [hmakes]
  exact ⟨_, rfl⟩

end Identity

/-! ### The signature of one key -/

namespace Ecdsa

/-- The smallest key, the one of the scalar 1, whose public point is the generator. -/
def smallestKey : SecretKey := ⟨1, by decide, by decide⟩

/-- Its signature of one hash, written out. That this is what signing gives is shown by
`Ecdsa.sign?_smallestKey`. -/
def sampleSignature : Signature :=
  ⟨0xf8f62853af487e486ded396b72d44c64c030eb4a2482d931d3e1451daee1f0e7,
    0x1d53ce9fc60dff6232264d1bfcdcc55ddb94e2687c26c893b188c985c76cf2be, true⟩

theorem publicPoint_smallestKey : smallestKey.publicPoint = Secp256k1.generator := by
  decide +kernel

theorem feed_eq {c : Chain} {separator : UInt8} {extra key value : Bytes}
    (hkey : Sha256.hmac c.key (c.value ++ separator :: extra) = key)
    (hvalue : Sha256.hmac key c.value = value) : c.feed separator extra = ⟨key, value⟩ := by
  rw [Chain.feed, hkey, hvalue]

/-- What the chain is fed for the smallest key and that hash, when a one-time number is looked
for. -/
def sampleInput : Bytes :=
  smallestKey.toBytes ++ Bytes.ofNatBE 32 (Bytes.toNatBE sampleHash % Secp256k1.order)

/-- The chain half way to its start. The hashing is taken in two steps, as each of them is some work
to compute. -/
def halfStarted : Chain where
  key :=
    [0xef, 0xb5, 0x97, 0xe6, 0x7d, 0x22, 0x43, 0xce, 0x3d, 0x47, 0xde, 0xa7, 0xde, 0x05, 0x92, 0x97,
     0xec, 0xb9, 0xc5, 0xd4, 0xbc, 0xa7, 0x8c, 0x8c, 0x08, 0x48, 0x67, 0x54, 0xb9, 0xea, 0x42, 0x6e]
  value :=
    [0xd0, 0x03, 0xa5, 0x83, 0xa8, 0x3c, 0x4b, 0x54, 0x69, 0x12, 0xda, 0x5d, 0x1d, 0xaf, 0xd5, 0x8c,
     0xff, 0xf0, 0xfe, 0x5b, 0x32, 0x1e, 0xfa, 0x05, 0x64, 0xcb, 0xbb, 0xd4, 0x95, 0xcb, 0x7d, 0x02]

/-- The chain at its start, from which the one-time number is drawn. -/
def started : Chain where
  key :=
    [0xc9, 0x8e, 0xc2, 0x18, 0xf9, 0x9b, 0x23, 0x42, 0x31, 0x11, 0xad, 0x8f, 0xe5, 0x71, 0x14, 0xae,
     0x4c, 0x13, 0x47, 0x63, 0x11, 0xf5, 0xcf, 0xef, 0x1f, 0x2b, 0x07, 0x33, 0xf3, 0xa1, 0x41, 0x5c]
  value :=
    [0xc2, 0x93, 0xcc, 0x60, 0xdf, 0x14, 0xa3, 0x54, 0xf5, 0xe9, 0x9e, 0xce, 0x47, 0x0b, 0xcd, 0x7a,
     0x0f, 0xf8, 0xfd, 0xfe, 0x41, 0x7c, 0x9b, 0x31, 0x1d, 0x18, 0x70, 0x6c, 0x90, 0xfb, 0x7f, 0xfa]

-- Each keyed hash is computed on its own, since a computation keeps all that it has seen.

theorem feed_zero_sampleInput :
    (Chain.mk (List.replicate 32 0) (List.replicate 32 1)).feed 0 sampleInput = halfStarted :=
  feed_eq (by decide +kernel) (by decide +kernel)

theorem feed_one_sampleInput : halfStarted.feed 1 sampleInput = started :=
  feed_eq (by decide +kernel) (by decide +kernel)

/-- The smallest key signs that hash with that signature. -/
theorem sign?_smallestKey :
    sign? smallestKey (personalHash (commitmentDigest 2 0)) = some sampleSignature := by
  rw [personalHash_eq_sampleHash, sign?, Chain.start]
  show signFrom? smallestKey (Bytes.toNatBE sampleHash % Secp256k1.order) 100
    (((Chain.mk (List.replicate 32 0) (List.replicate 32 1)).feed 0 sampleInput).feed 1
      sampleInput) = _
  rw [feed_zero_sampleInput, feed_one_sampleInput]
  decide +kernel

/-- From the signature the public point of the key is found again. -/
theorem recover?_sampleSignature :
    recover? (personalHash (commitmentDigest 2 0)) sampleSignature =
      some Secp256k1.generator := by
  rw [personalHash_eq_sampleHash]
  decide +kernel

end Ecdsa

namespace Identity

/-- So the smallest key is one whose signature of the digest recovers. Conditions of this kind are
met by a real key. -/
theorem recovers_smallestKey : (ofKey Ecdsa.smallestKey).Recovers (commitmentDigest 2 0) := by
  intro key signature hkey hsignature
  obtain rfl := Option.some.inj hkey
  rw [Ecdsa.sign?_smallestKey] at hsignature
  obtain rfl := Option.some.inj hsignature
  refine ⟨by decide, by decide, by decide, ?_⟩
  -- The point that is found is the public one, so its address is that of the key.
  have haddress : ∃ a, Address.ofPoint? Secp256k1.generator = some a := by
    unfold Secp256k1.generator
    exact ⟨_, rfl⟩
  obtain ⟨a, ha⟩ := haddress
  have hkey : (ofKey Ecdsa.smallestKey).address = a := by
    rw [ofKey, Address.ofKey, Ecdsa.publicPoint_smallestKey, ha, Option.getD_some]
  rw [Ecdsa.recover?_sampleSignature, Option.bind_some, hkey, ha]

theorem exists_sign_smallestKey :
    ∃ x, (ofKey Ecdsa.smallestKey).sign (commitmentDigest 2 0) = .ok x := by
  rw [sign_eq_signBy]
  exact exists_signBy rfl Ecdsa.sign?_smallestKey

end Identity

end Countersign
