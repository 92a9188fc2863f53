import Countersign.Proofs.Store.QuorumCache
import Countersign.Proofs.Valset.Power

/-!
# Two quorums of one valset

Two quorums of a valset have members in common, with a third of its power at least
(`Store.quorums_intersect`). The targets may differ in any way, and so may what the replicas hold
when each of the quorums is polled. So if two attestations that exclude each other both gather a
quorum, then members with a third of the power signed both.

The argument is that of two groups that are both large (`Valset.powerAmong_add_le`): each quorum has
two thirds of the power, rounded up, and counts each of its signers once. It needs that the powers
add up below the ceiling of 64 bits, as normalised powers do. Otherwise the threshold would be two
thirds of the ceiling, and less than that of the power.
-/

namespace Countersign

open Routine

variable {target target' : QuorumTarget} {valset : Valset} {confirms confirms' : List Confirm}

/-- The signers of a quorum have the power of the threshold, each of them counted once. The power is
then that of a set of members, as the argument about two sets needs it. -/
theorem IsQuorum.threshold_le_powerAmong (h : IsQuorum target valset confirms)
    (distinct : valset.addresses.Nodup) :
    valset.threshold.toNat ≤ valset.powerAmong (confirms.map Confirm.signer) := by
  calc valset.threshold.toNat
      ≤ (confirms.map fun c => (valset.powerOf c.signer).toNat).sum := h.power
    _ = ((confirms.map Confirm.signer).map fun a => (valset.powerOf a).toNat).sum := by
        rw [List.map_map]
        rfl
    _ = valset.powerAmong (confirms.map Confirm.signer) :=
        Valset.sum_powerOf_eq distinct h.ordered

/-- A signer of a quorum is a member whose signature for the target verifies. -/
theorem IsQuorum.verified_of_mem (h : IsQuorum target valset confirms) {signer : Address}
    (hmem : signer ∈ confirms.map Confirm.signer) :
    signer ∈ valset.addresses ∧ ∃ c ∈ confirms, c.signer = signer ∧ c.kind = target.kind ∧
      verifyText target.digest c.signature signer = .ok () := by
  refine ⟨h.ordered.subset hmem, ?_⟩
  obtain ⟨c, hc, rfl⟩ := List.mem_map.mp hmem
  exact ⟨c, hc, rfl, h.kinds c hc, h.verified c hc⟩

/-- The signers that occur in both of two answers, in the order of the first. -/
def commonSigners (confirms confirms' : List Confirm) : List Address :=
  (confirms.map Confirm.signer).filter (· ∈ confirms'.map Confirm.signer)

theorem mem_commonSigners {signer : Address} :
    signer ∈ commonSigners confirms confirms' ↔
      signer ∈ confirms.map Confirm.signer ∧ signer ∈ confirms'.map Confirm.signer := by
  rw [commonSigners, List.mem_filter, decide_eq_true_iff]

/-- The common signers of two quorums have a third of the power. If they had less, the two sets
together would have more than all of it. -/
theorem IsQuorum.exactPower_le (h : IsQuorum target valset confirms)
    (h' : IsQuorum target' valset confirms') (distinct : valset.addresses.Nodup)
    (normalized : valset.exactPower < UInt64.size) :
    valset.exactPower ≤ 3 * valset.powerAmong (commonSigners confirms confirms') := by
  have hlarge := h.threshold_le_powerAmong distinct
  have hlarge' := h'.threshold_le_powerAmong distinct
  have hthreshold := Valset.two_mul_exactPower_le normalized
  have hgroups := valset.powerAmong_add_le (confirms.map Confirm.signer)
    (confirms'.map Confirm.signer)
  -- Two thirds and two thirds are a third more than everything.
  show _ ≤ 3 * valset.powerAmong ((confirms.map Confirm.signer).filter _)
  omega

namespace Store

variable {config config' : StoreConfig} {deadline deadline' : Nat} {t t' : List Exchange}

/-- An answer that the cache did not give is a quorum of the valset that was asked about. One that
it gave may be a quorum of another. -/
theorem isQuorum_of_polled (distinct : valset.addresses.Nodup)
    (h : Follows (queryQuorum config target valset deadline) t (.ok confirms))
    (polled : ∀ records, ⟨.recall target, some records⟩ ∉ t) : IsQuorum target valset confirms := by
  rcases queryQuorum_follows distinct h with ⟨records, rfl, -⟩ | ⟨rest, -, hquorum⟩
  · exact absurd List.mem_cons_self (polled records)
  · exact hquorum

/-- **Two quorums that were polled for one valset** have signers in common: members with a third of
its power together, of whom each has a signature in either quorum that verifies. -/
theorem quorums_intersect (distinct : valset.addresses.Nodup)
    (normalized : valset.exactPower < UInt64.size)
    (h : Follows (queryQuorum config target valset deadline) t (.ok confirms))
    (polled : ∀ records, ⟨.recall target, some records⟩ ∉ t)
    (h' : Follows (queryQuorum config' target' valset deadline') t' (.ok confirms'))
    (polled' : ∀ records, ⟨.recall target', some records⟩ ∉ t') :
    valset.exactPower ≤ 3 * valset.powerAmong (commonSigners confirms confirms') ∧
    ∀ signer ∈ commonSigners confirms confirms', signer ∈ valset.addresses ∧
      (∃ c ∈ confirms, c.signer = signer ∧ c.kind = target.kind ∧
        verifyText target.digest c.signature signer = .ok ()) ∧
      ∃ c ∈ confirms', c.signer = signer ∧ c.kind = target'.kind ∧
        verifyText target'.digest c.signature signer = .ok () := by
  have hquorum := isQuorum_of_polled distinct h polled
  have hquorum' := isQuorum_of_polled distinct h' polled'
  refine ⟨hquorum.exactPower_le hquorum' distinct normalized, ?_⟩
  intro signer hsigner
  obtain ⟨hmem, hmem'⟩ := mem_commonSigners.mp hsigner
  obtain ⟨hmember, hverified⟩ := hquorum.verified_of_mem hmem
  exact ⟨hmember, hverified, (hquorum'.verified_of_mem hmem').2⟩

/-! ### Two quorums of three members -/

/-- Three signatures that nobody had to make, each with the address that is found for it: they
differ in the parity of their one-time point, or in `s`. -/
def keylessSigners : List (Vrs × Address) :=
  [(Vrs.keyless, ⟨0xe6f18c183cf9a28369cf6b3bb209881b812e5cc9⟩),
    ({ Vrs.keyless with v := 28 }, ⟨0x6742ce9d4223629057d21dd359dc30f7ea9d8ca3⟩),
    ({ Vrs.keyless with s := 2 }, ⟨0xb76d246501d61d43493191354294a5fc81bb4602⟩)]

theorem verifyText_keylessSigners : ∀ p ∈ keylessSigners,
    verifyText (commitmentDigest 2 0) p.1.render p.2 = .ok () := by
  have hcanonical : ∀ p ∈ keylessSigners, p.1.Canonical := by
    unfold keylessSigners
    simp only [List.forall_mem_cons, List.not_mem_nil, false_imp_iff, implies_true, and_true]
    exact ⟨⟨Or.inl rfl, by decide, by decide⟩, ⟨Or.inr rfl, by decide, by decide⟩,
      ⟨Or.inl rfl, by decide, by decide⟩⟩
  have hfound : ∀ p ∈ keylessSigners, p.1.signer? sampleHash = some p.2 := by
    unfold keylessSigners
    simp only [List.forall_mem_cons, List.not_mem_nil, false_imp_iff, implies_true, and_true]
    refine ⟨?_, ?_, ?_⟩ <;> decide +kernel
  intro p hp
  refine verifyText_render (hcanonical p hp) ?_
  rw [personalHash_eq_sampleHash]
  exact hfound p hp

/-- Three addresses that are told apart, each with a signature of one digest that verifies for it.
Which ones they are does not matter from here on, so nothing of them is computed again. -/
theorem exists_three_signers :
    ∃ (nonce : UInt64) (root : Word) (x y z : Vrs × Address), [x.2, y.2, z.2].Nodup ∧
      ∀ p ∈ [x, y, z], verifyText (commitmentDigest nonce root) p.1.render p.2 = .ok () := by
  have hverify := verifyText_keylessSigners
  have hdistinct : (keylessSigners.map Prod.snd).Nodup := by decide
  obtain ⟨x, y, z, hsigners⟩ : ∃ x y z, keylessSigners = [x, y, z] := ⟨_, _, _, rfl⟩
  rw [hsigners] at hverify hdistinct
  exact ⟨2, 0, x, y, z, hdistinct, hverify⟩

/-- Three members with one power each. Two of them are a quorum. -/
def trio (first second third : Address) : Valset :=
  ⟨1, [⟨1, first⟩, ⟨1, second⟩, ⟨1, third⟩], 0, .epoch⟩

theorem threshold_trio (first second third : Address) :
    (trio first second third).threshold = 2 := by
  change Valset.twoThirds (saturatingAdd (saturatingAdd (saturatingAdd 0 1) 1) 1) = 2
  decide

/-- What a signer publishes for an attestation of a kind. -/
def confirmBy (kind : AttestationKind) (root : Word) (p : Vrs × Address) : Confirm :=
  match kind with
  | .valset => .valset ⟨p.2, p.1.render⟩
  | .dataCommitment => .commitment ⟨p.1.render, p.2, root⟩

@[simp] theorem kind_confirmBy (kind : AttestationKind) (root : Word) (p : Vrs × Address) :
    (confirmBy kind root p).kind = kind := by
  cases kind <;> rfl

@[simp] theorem signer_confirmBy (kind : AttestationKind) (root : Word) (p : Vrs × Address) :
    (confirmBy kind root p).signer = p.2 := by
  cases kind <;> rfl

@[simp] theorem signature_confirmBy (kind : AttestationKind) (root : Word) (p : Vrs × Address) :
    (confirmBy kind root p).signature = p.1.render := by
  cases kind <;> rfl

/-- **A member's own confirm is kept**, whichever kind of attestation it is published for. -/
theorem confirmAmong_confirmBy (kind : AttestationKind) {nonce : UInt64} {root : Word}
    {p : Vrs × Address}
    (hverify : verifyText (commitmentDigest nonce root) p.1.render p.2 = .ok ()) :
    confirmAmong ⟨kind, nonce, commitmentDigest nonce root⟩ ⟨1, p.2⟩
      [Bytes.ofText (confirmBy kind root p).encode] = some (confirmBy kind root p) := by
  have hcheck : (confirmBy kind root p).checkSignature nonce = .ok () := by
    cases kind with
    | valset =>
      obtain ⟨x, hparse, -⟩ := verifyText_eq_ok_iff.mp hverify
      rw [confirmBy, Confirm.checkSignature, hparse]
    | dataCommitment =>
      rw [confirmBy, Confirm.checkSignature]
      exact hverify
  refine confirmAmong_encode ?_ ?_ ?_ ?_ []
  · exact kind_confirmBy kind root p
  · exact signer_confirmBy kind root p
  · exact hcheck
  · rw [signature_confirmBy]
    exact hverify

/-- **Two quorums of three members**, for a commitment and for a valset. The first two members
signed for the one and the last two for the other. The member in the middle is in both, and has a
third of the power, so there are quorums with no more in common than they must have. -/
theorem quorums_intersect_of_trio :
    ∃ (target target' : QuorumTarget) (confirms confirms' : List Confirm) (t t' : List Exchange)
      (first second third : Address), target.kind ≠ target'.kind ∧
      Follows (queryQuorum .standard target (trio first second third) 1000) t (.ok confirms) ∧
      confirms.map Confirm.signer = [first, second] ∧
      Follows (queryQuorum .standard target' (trio first second third) 1000) t' (.ok confirms') ∧
      confirms'.map Confirm.signer = [second, third] ∧
      (trio first second third).exactPower = 3 ∧
      3 ≤ 3 * (trio first second third).powerAmong (commonSigners confirms confirms') := by
  obtain ⟨nonce, root, x, y, z, hdistinct, hverify⟩ := exists_three_signers
  have hkept (kind : AttestationKind) (p : Vrs × Address) (hp : p ∈ [x, y, z]) :=
    confirmAmong_confirmBy kind (hverify p hp)
  -- In each of the two polls one of the members has no candidates.
  have hfirst : collect ⟨.dataCommitment, nonce, commitmentDigest nonce root⟩
      (trio x.2 y.2 z.2).members
      [[Bytes.ofText (confirmBy .dataCommitment root x).encode],
        [Bytes.ofText (confirmBy .dataCommitment root y).encode], []] =
      [(1, confirmBy .dataCommitment root x), (1, confirmBy .dataCommitment root y)] := by
    rw [trio, collect_cons, hkept _ x (by simp), collect_cons, hkept _ y (by simp), collect_cons]
    rfl
  have hsecond : collect ⟨.valset, nonce, commitmentDigest nonce root⟩ (trio x.2 y.2 z.2).members
      [[], [Bytes.ofText (confirmBy .valset root y).encode],
        [Bytes.ofText (confirmBy .valset root z).encode]] =
      [(1, confirmBy .valset root y), (1, confirmBy .valset root z)] := by
    rw [trio, collect_cons, collect_cons, hkept _ y (by simp), collect_cons, hkept _ z (by simp)]
    rfl
  -- Two members have the power of the threshold, whatever they signed.
  have hthreshold := threshold_trio x.2 y.2 z.2
  have hnonzero : (trio x.2 y.2 z.2).threshold ≠ 0 := by
    rw [hthreshold]
    decide
  have hpower (c c' : Confirm) :
      (trio x.2 y.2 z.2).threshold ≤ collectedPower [(1, c), (1, c')] := by
    rw [hthreshold]
    show (2 : UInt64) ≤ saturatingAdd (saturatingAdd 0 1) 1
    decide
  have hpolled : Follows (queryQuorum .standard _ (trio x.2 y.2 z.2) 1000) _
      (.ok [confirmBy .dataCommitment root x, confirmBy .dataCommitment root y]) :=
    queryQuorum_follows_first_poll 0 hnonzero hfirst (hpower _ _)
  have hpolled' : Follows (queryQuorum .standard _ (trio x.2 y.2 z.2) 1000) _
      (.ok [confirmBy .valset root y, confirmBy .valset root z]) :=
    queryQuorum_follows_first_poll 0 hnonzero hsecond (hpower _ _)
  have hexact : (trio x.2 y.2 z.2).exactPower = 3 := rfl
  have hnormalized : (trio x.2 y.2 z.2).exactPower < UInt64.size := by
    rw [hexact]
    decide
  have haddresses : (trio x.2 y.2 z.2).addresses.Nodup := hdistinct
  have hcommon := quorums_intersect haddresses hnormalized hpolled (by simp) hpolled' (by simp)
  rw [hexact] at hcommon
  refine ⟨_, _, _, _, _, _, x.2, y.2, z.2, ?_, hpolled, ?_, hpolled', ?_, hexact, hcommon.1⟩
  · exact AttestationKind.noConfusion
  · simp
  · simp

end Store

end Countersign
