import Countersign.Digest
import Countersign.Proofs.Abi.Rows

/-!
# What a digest binds

A digest is the hash of a byte string, the payload. This module says how much of an attestation its
payload contains: the payloads of two valsets are the same exactly if nonces, thresholds and hashes
of the members are, those of two data roots exactly if nonces and roots are, and no payload of the
one kind is one of the other kind (`Valset.payload_inj`, `commitmentPayload_inj`,
`Valset.payload_ne_commitmentPayload`). The hash of the members has a payload of its own, which
contains the members in order with their powers (`Valset.membersPayload_inj`).

Hashes may collide, and nothing is assumed that says they do not: there are fewer hashes than byte
strings. Instead two equal digests are accounted for in full. They are those of the same
attestation, or two particular byte strings, which the statement names, have the same hash
(`Collide`, `digests_bind`).
-/

namespace Countersign

/-! ### Payloads -/

/-- The members are bound, in order, each with its power. Their number is bound by the length of the
payload. -/
theorem Valset.membersPayload_inj {a b : Valset} :
    a.membersPayload = b.membersPayload ↔ a.members = b.members := by
  show Abi.encode [.table (a.members.map Member.toRow)] =
    Abi.encode [.table (b.members.map Member.toRow)] ↔ _
  rw [Abi.encode_table_inj (by decide) a.rectangular b.rectangular]
  -- The rows are the same exactly if the members are.
  constructor
  · intro hrows
    exact List.map_injective_iff.mpr Member.toRow_injective hrows
  · intro hmembers
    rw [hmembers]

/-- The payload of a valset is four words, one after the other. -/
theorem Valset.payload_eq (v : Valset) :
    v.payload = Abi.wordBytes
      [valsetDomain, .ofUInt64 v.nonce, .ofUInt64 v.threshold, v.membersHash] :=
  Abi.encode_words [valsetDomain, .ofUInt64 v.nonce, .ofUInt64 v.threshold, v.membersHash]

/-- The payload of a data root is three words. -/
theorem commitmentPayload_eq (nonce : UInt64) (root : Word) :
    commitmentPayload nonce root = Abi.wordBytes [commitmentDomain, .ofUInt64 nonce, root] :=
  Abi.encode_words [commitmentDomain, .ofUInt64 nonce, root]

/-- The payload of a valset binds its nonce, its threshold and the hash of its members. -/
theorem Valset.payload_inj {a b : Valset} :
    a.payload = b.payload ↔
      a.nonce = b.nonce ∧ a.threshold = b.threshold ∧ a.membersHash = b.membersHash := by
  rw [Valset.payload_eq, Valset.payload_eq, Abi.wordBytes_inj]
  simp only [List.cons.injEq, true_and, and_true, Word.ofUInt64_inj]

/-- That of a data root binds its nonce and the root. -/
theorem commitmentPayload_inj {nonce nonce' : UInt64} {root root' : Word} :
    commitmentPayload nonce root = commitmentPayload nonce' root' ↔
      nonce = nonce' ∧ root = root' := by
  rw [commitmentPayload_eq, commitmentPayload_eq, Abi.wordBytes_inj]
  simp only [List.cons.injEq, true_and, and_true, Word.ofUInt64_inj]

/-- The kinds are told apart: the one payload has four words, and the other three. The domains in
front differ as well, which is not needed here. -/
theorem Valset.payload_ne_commitmentPayload (v : Valset) (nonce : UInt64) (root : Word) :
    v.payload ≠ commitmentPayload nonce root := by
  rw [Valset.payload_eq, commitmentPayload_eq, ne_eq, Abi.wordBytes_inj]
  intro h
  cases congrArg List.length h

/-! ### Hashes -/

/-- Two byte strings collide: they are different, and have the same hash. Such byte strings exist;
what is meant to be hard is to find any. -/
def Collide (p q : Bytes) : Prop :=
  p ≠ q ∧ Keccak.hash p = Keccak.hash q

theorem Word.toBytes_ofBytes {bytes : Bytes} (h : bytes.length = 32) :
    (Word.ofBytes bytes).toBytes = bytes := by
  have hlt := Bytes.toNatBE_lt bytes
  rw [h] at hlt
  have hbits : (BitVec.ofNat 256 (Bytes.toNatBE bytes)).toNat = Bytes.toNatBE bytes := by
    rw [BitVec.toNat_ofNat]
    exact Nat.mod_eq_of_lt (Nat.lt_of_lt_of_eq hlt (by decide))
  rw [Word.toBytes, Word.ofBytes, hbits, ← h, Bytes.ofNatBE_toNatBE]

/-- A hash as a word is the whole hash, as it has 32 bytes. -/
theorem hashWord_inj {p q : Bytes} : hashWord p = hashWord q ↔ Keccak.hash p = Keccak.hash q := by
  refine ⟨?_, fun h => by rw [hashWord, hashWord, h]⟩
  intro h
  have hbytes := congrArg Word.toBytes h
  rwa [hashWord, hashWord, Word.toBytes_ofBytes (Keccak.length_hash p),
    Word.toBytes_ofBytes (Keccak.length_hash q)] at hbytes

/-- Equal hashes are hashes of the same byte string, or there is a collision, and then it is this
one. -/
theorem hashWord_eq_iff {p q : Bytes} : hashWord p = hashWord q ↔ p = q ∨ Collide p q := by
  rw [hashWord_inj]
  constructor
  · intro h
    by_cases hpq : p = q
    · exact Or.inl hpq
    · exact Or.inr ⟨hpq, h⟩
  · rintro (rfl | ⟨-, h⟩)
    · rfl
    · exact h

/-! ### Digests -/

/-- Valsets with the same nonce and members have the same payload, whatever their heights and times
are. So a contract need not know these. -/
theorem Valset.payload_congr {a b : Valset} (hnonce : a.nonce = b.nonce)
    (hmembers : a.members = b.members) : a.payload = b.payload := by
  refine payload_inj.mpr ⟨hnonce, ?_, ?_⟩
  · -- The threshold is computed from the powers.
    unfold threshold totalPower
    rw [hmembers]
  · rw [membersHash, membersHash, membersPayload_inj.mpr hmembers]

/-- **Equal digests of valsets** are those of equal nonces and members, or one of the two hashes
that went into them has collided. -/
theorem Valset.digest_eq_iff {a b : Valset} :
    a.digest = b.digest ↔ (a.nonce = b.nonce ∧ a.members = b.members) ∨
      Collide a.payload b.payload ∨
      (a.payload = b.payload ∧ Collide a.membersPayload b.membersPayload) := by
  rw [digest, digest, hashWord_eq_iff]
  constructor
  · -- Two hashes are taken, so there are two places at which a collision can be.
    rintro (hpayload | hcollide)
    · obtain ⟨hnonce, -, hhash⟩ := payload_inj.mp hpayload
      rcases hashWord_eq_iff.mp hhash with hmembers | hcollide
      · exact Or.inl ⟨hnonce, membersPayload_inj.mp hmembers⟩
      · exact Or.inr (Or.inr ⟨hpayload, hcollide⟩)
    · exact Or.inr (Or.inl hcollide)
  · rintro (⟨hnonce, hmembers⟩ | hcollide | ⟨hpayload, -⟩)
    · exact Or.inl (payload_congr hnonce hmembers)
    · exact Or.inr hcollide
    · exact Or.inl hpayload

/-- **Digests bind what is attested.**

* The byte string behind the hash of a valset's members determines them, in order and with their
  powers; that behind its digest determines nonce, threshold and this hash; that behind the digest
  of a data root determines nonce and root. No byte string is of both kinds.
* So two valsets have the same digest exactly if they have the same nonce and the same members, or
  the byte strings behind their digests or behind the hashes of their members collide; two data
  roots exactly if they have the same nonce and are the same, or their byte strings collide; and a
  valset and a data root only if theirs collide. -/
theorem digests_bind (a b : Valset) (nonce nonce' : UInt64) (root root' : Word) :
    (a.membersPayload = b.membersPayload ↔ a.members = b.members) ∧
    (a.payload = b.payload ↔
      a.nonce = b.nonce ∧ a.threshold = b.threshold ∧ a.membersHash = b.membersHash) ∧
    (commitmentPayload nonce root = commitmentPayload nonce' root' ↔
      nonce = nonce' ∧ root = root') ∧
    a.payload ≠ commitmentPayload nonce root ∧
    (a.digest = b.digest ↔ (a.nonce = b.nonce ∧ a.members = b.members) ∨
      Collide a.payload b.payload ∨
      (a.payload = b.payload ∧ Collide a.membersPayload b.membersPayload)) ∧
    (commitmentDigest nonce root = commitmentDigest nonce' root' ↔
      (nonce = nonce' ∧ root = root') ∨
      Collide (commitmentPayload nonce root) (commitmentPayload nonce' root')) ∧
    (a.digest = commitmentDigest nonce root ↔
      Collide a.payload (commitmentPayload nonce root)) := by
  have hkinds := a.payload_ne_commitmentPayload nonce root
  refine ⟨Valset.membersPayload_inj, Valset.payload_inj, commitmentPayload_inj, hkinds,
    Valset.digest_eq_iff, ?_, ?_⟩
  · rw [commitmentDigest, commitmentDigest, hashWord_eq_iff, commitmentPayload_inj]
  · rw [Valset.digest, commitmentDigest, hashWord_eq_iff, or_iff_right hkinds]

end Countersign
