import Countersign.Digest
import Countersign.Proofs.Text.Hex
import Countersign.Signature.Recovery

/-!
# Canonical signatures

What `Vrs.ofBytes` lets through is **canonical** (`Vrs.Canonical`): the recovery byte is 27 or 28,
and `s` lies in the lower half of the group's order and is not zero. A canonical signature is read
from its own bytes as it is (`Vrs.ofBytes_toBytes`), so the signer that is found for a signature
in any writing is found again for its parts (`recover_toBytes_of_verifyText`); and its text is
read back as well (`Vrs.parse_render`).

At the end stands one signature that can be checked without signing anything (`Vrs.keyless`), for
statements that need some signature that verifies.
-/

namespace Countersign

/-- **The form in which signatures are accepted.** Of the four writings that one signature could
have, by its recovery byte and by the sign of `s`, it leaves one. -/
structure Vrs.Canonical (x : Vrs) : Prop where
  recovery : x.v = 27 ∨ x.v = 28
  s_pos : 0 < x.s.toNat
  s_le : x.s.toNat ≤ Secp256k1.order / 2

namespace Vrs

/-- The bound on `s` is half the order of the group. The order is odd, so the bound itself is above
the half. -/
theorem malleabilityBound_eq : malleabilityBound = Secp256k1.order / 2 + 1 := by
  decide

/-- A canonical signature is not the empty place of a member who has not signed. -/
theorem Canonical.ne_zero {x : Vrs} (h : x.Canonical) : x ≠ zero := by
  rintro rfl
  exact absurd h.s_pos (by decide)

/-- The normal form of a recovery byte is 27 or 28, whichever of the two ways it came in. -/
theorem normalRecovery?_eq_some {v w : UInt8} (h : normalRecovery? v = some w) :
    w = 27 ∨ w = 28 := by
  simp only [normalRecovery?] at h
  split at h
  · exact Or.inl (Option.some.inj h).symm
  split at h
  · exact Or.inr (Option.some.inj h).symm
  split at h
  · next hv => rwa [Option.some.inj h] at hv
  · cases h

/-- A byte in normal form stays as it is. -/
theorem normalRecovery?_of_normal {v : UInt8} (h : v = 27 ∨ v = 28) :
    normalRecovery? v = some v := by
  rcases h with rfl | rfl <;> decide

/-- **What is read as a signature is canonical.** -/
theorem canonical_of_ofBytes {bytes : Bytes} {x : Vrs} (h : ofBytes bytes = .ok x) :
    x.Canonical := by
  rw [ofBytes] at h
  split at h
  · cases h
  dsimp only at h
  split at h
  · cases h
  next w hv =>
    split at h
    · cases h
    next hs =>
      obtain rfl := (Except.ok.inj h).symm
      obtain ⟨hpos, hlt⟩ := not_or.mp hs
      rw [malleabilityBound_eq] at hlt
      -- The bytes of `s` are a number below the order, so the word for them is that number.
      have hbound : Secp256k1.order / 2 + 1 < 2 ^ 256 := by decide
      have hnat : (Word.ofBytes ((bytes.drop 32).take 32)).toNat =
          Bytes.toNatBE ((bytes.drop 32).take 32) := by
        rw [Word.ofBytes, BitVec.toNat_ofNat, Nat.mod_eq_of_lt (by omega)]
      refine ⟨normalRecovery?_eq_some hv, ?_, ?_⟩
      · rw [hnat]
        omega
      · rw [hnat]
        omega

/-- What is read from a text is canonical, as the text gives bytes. -/
theorem canonical_of_parse {text : String} {x : Vrs} (h : parse text = .ok x) : x.Canonical := by
  rw [parse] at h
  split at h
  · exact canonical_of_ofBytes h
  · cases h

/-- **The parts are read from the bytes** that they come to, with the recovery byte in its normal
form, if that exists and `s` is in range. -/
theorem ofBytes_toBytes_eq (x : Vrs) :
    ofBytes x.toBytes = match normalRecovery? x.v with
      | none => .error (.invalidRecoveryByte x.v)
      | some v =>
        if x.s.toNat = 0 ∨ malleabilityBound ≤ x.s.toNat then .error .malleable
        else .ok ⟨v, x.r, x.s⟩ := by
  -- The three parts stand at the places where they are read.
  have hr : x.toBytes.take 32 = x.r.toBytes := by
    rw [toBytes, List.take_append_of_le_length (by simp), List.take_of_length_le (by simp)]
  have hs : (x.toBytes.drop 32).take 32 = x.s.toBytes := by
    rw [toBytes, List.drop_append_of_le_length (by simp), List.drop_of_length_le (by simp),
      List.nil_append, List.take_append_of_le_length (by simp), List.take_of_length_le (by simp)]
  have hv : x.toBytes.getD 64 0 = x.v := by
    rw [toBytes, List.getD_eq_getElem?_getD, List.getElem?_append_right (by simp),
      List.getElem?_append_right (by simp)]
    simp
  have hnat : Bytes.toNatBE x.s.toBytes = x.s.toNat :=
    Bytes.toNatBE_ofNatBE_of_lt x.s.isLt
  unfold ofBytes
  rw [if_neg (by simp)]
  dsimp only
  rw [hv]
  cases normalRecovery? x.v with
  | none => rfl
  | some v =>
    dsimp only
    rw [hr, hs, hnat, Word.ofBytes_toBytes, Word.ofBytes_toBytes]

/-- A canonical signature is read from its own bytes, without a change. -/
theorem ofBytes_toBytes {x : Vrs} (h : x.Canonical) : ofBytes x.toBytes = .ok x := by
  have hbound : ¬ (x.s.toNat = 0 ∨ malleabilityBound ≤ x.s.toNat) := by
    rw [malleabilityBound_eq]
    have hpos := h.s_pos
    have hle := h.s_le
    omega
  rw [ofBytes_toBytes_eq]
  simp only [normalRecovery?_of_normal h.recovery, if_neg hbound]

end Vrs

/-! ### Verified texts -/

/-- A text verifies for an address exactly if it is read as a signature for which the address is
found. No key of the signer is needed for this. -/
theorem verifyText_eq_ok_iff {digest : Word} {text : String} {signer : Address} :
    verifyText digest text signer = .ok () ↔
      ∃ x, Vrs.parse text = .ok x ∧ x.signer? (personalHash digest) = some signer := by
  rw [verifyText, Vrs.parse]
  cases decodeSignature text with
  | error e => simp
  | ok bytes =>
    simp only [verify, recover]
    cases Vrs.ofBytes bytes with
    | error e => simp
    | ok x =>
      cases hx : x.signer? (personalHash digest) with
      | none => simp [hx]
      | some found => simp [hx]

/-- The signer is found for the parts of a verified text, put together again. The contract is given
such parts, not the text. -/
theorem recover_toBytes_of_verifyText {digest : Word} {text : String} {signer : Address} {x : Vrs}
    (h : verifyText digest text signer = .ok ()) (hx : Vrs.parse text = .ok x) :
    recover digest x.toBytes = .ok signer := by
  obtain ⟨y, hy, hsigner⟩ := verifyText_eq_ok_iff.mp h
  obtain rfl : x = y := Except.ok.inj (hx.symm.trans hy)
  rw [recover, Vrs.ofBytes_toBytes (Vrs.canonical_of_parse hx)]
  simp only [hsigner]

/-- An address other than a given one: there are more than one. -/
theorem exists_ne_address (a : Address) : ∃ b : Address, b ≠ a :=
  ⟨⟨a.bits + 1⟩, fun h => by simpa using congrArg Address.bits h⟩

/-- A text that verifies for some address does not for another, since one signer at most is found
for it. -/
theorem exists_not_verifyText (digest : Word) (text : String) :
    ∃ signer, verifyText digest text signer ≠ .ok () := by
  by_cases h : ∃ signer, verifyText digest text signer = .ok ()
  · obtain ⟨signer, hsigner⟩ := h
    obtain ⟨other, hother⟩ := exists_ne_address signer
    refine ⟨other, fun hverify => hother ?_⟩
    -- Both would be the signer that is found for the one signature which the text holds.
    obtain ⟨x, hx, hfound⟩ := verifyText_eq_ok_iff.mp hsigner
    obtain ⟨y, hy, hfound'⟩ := verifyText_eq_ok_iff.mp hverify
    obtain rfl : x = y := Except.ok.inj (hx.symm.trans hy)
    exact Option.some.inj (hfound'.symm.trans hfound)
  · exact ⟨⟨0⟩, fun hverify => h ⟨_, hverify⟩⟩

/-! ### Signatures as text -/

/-- A text of digits has no prefix `0x`, as `x` is no digit. -/
theorem Hex.stripPrefix_digitBytes (bytes : Bytes) :
    stripPrefix (bytes.flatMap digitBytes) = bytes.flatMap digitBytes := by
  have h := stripAnyPrefix_digitBytes bytes
  unfold stripPrefix
  split
  · next rest heq =>
    rw [heq] at h
    exact absurd (congrArg List.length h) (by simp [stripAnyPrefix]; omega)
  · rfl

/-- A canonical signature is read from its own text, as it is read from its bytes. -/
theorem Vrs.parse_render {x : Vrs} (h : x.Canonical) : parse x.render = .ok x := by
  have hdecode := Hex.decode_encode x.toBytes
  rw [Hex.ofText_encode] at hdecode
  rw [parse, decodeSignature, render, Hex.ofText_encode, Hex.stripPrefix_digitBytes, hdecode]
  exact ofBytes_toBytes h

/-- The text of a canonical signature verifies for the signer that is found for it. Signing ends
with such a text. -/
theorem verifyText_render {digest : Word} {x : Vrs} {signer : Address} (h : x.Canonical)
    (hsigner : x.signer? (personalHash digest) = some signer) :
    verifyText digest x.render signer = .ok () :=
  verifyText_eq_ok_iff.mpr ⟨x, Vrs.parse_render h, hsigner⟩

/-! ### A signature without a key -/

/-- The hash that is signed for the commitment with nonce 2 and root zero. It is written out so that
it is hashed once, and not in every example. -/
def sampleHash : Bytes :=
  [0x98, 0x4d, 0x76, 0xd3, 0xa4, 0x0c, 0x59, 0x4b, 0x4f, 0xa3, 0x6b, 0x06, 0xa5, 0x5f, 0x2f, 0xd1,
    0x58, 0xe2, 0x1a, 0x25, 0x78, 0xd5, 0x15, 0x02, 0x3a, 0x24, 0xee, 0x88, 0x11, 0xc3, 0x63, 0x42]

theorem commitmentDigest_two_zero : commitmentDigest 2 0 =
    0x7eb07463522353256a161b3949951ef93cefb8a73e6eb976b8cfe515427b1a45 := by
  decide +kernel

theorem personalHash_eq_sampleHash : personalHash (commitmentDigest 2 0) = sampleHash := by
  rw [commitmentDigest_two_zero]
  decide +kernel

namespace Vrs

/-- A signature that nobody had to make: its one-time point is the generator and its `s` is one. For
such a signature some public point is found, of which nobody knows the key. -/
def keyless : Vrs :=
  ⟨27, 0x79be667ef9dcbbac55a06295ce870b07029bfcdb2dce28d959f2815b16f81798, 1⟩

theorem canonical_keyless : keyless.Canonical :=
  ⟨Or.inl rfl, by decide, by decide⟩

/-- Some address is found for the signature, by the arithmetic of the curve. -/
theorem isSome_signer?_keyless :
    (keyless.signer? (personalHash (commitmentDigest 2 0))).isSome = true := by
  rw [personalHash_eq_sampleHash]
  decide +kernel

/-- Some address verifies against the digest of the commitment with nonce 2 and root zero. -/
theorem exists_verifyText_keyless :
    ∃ signer, verifyText (commitmentDigest 2 0) keyless.render signer = .ok () := by
  obtain ⟨signer, hsigner⟩ := Option.isSome_iff_exists.mp isSome_signer?_keyless
  exact ⟨signer, verifyText_render canonical_keyless hsigner⟩

end Vrs

end Countersign
