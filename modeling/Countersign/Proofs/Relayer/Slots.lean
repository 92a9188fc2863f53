import Countersign.Contract.Submission
import Countersign.Proofs.Relayer.Places
import Countersign.Proofs.Store.Collecting

/-!
# Signatures by place, checked

`orderSignatures` lines the confirms of a quorum up with the members of the valset. What comes out
is what the contract checks (`Quorate`):

* there is one signature for each member;
* each is either empty or canonical, and then the signer that is found for it is the member at its
  place;
* the members whose place is not empty have the power of a quorum.

The last point needs that a place is empty *only if* its member is no signer of the quorum: a
canonical signature is never empty.
-/

namespace Countersign

/-- A signature that may stand at a member's place, for a digest: none, or one that leads back to
the member. The contract makes this test. -/
def FitsPlace (digest : Word) (member : Member) (x : Vrs) : Prop :=
  x = Vrs.zero ∨ (x.Canonical ∧ recover digest x.toBytes = .ok member.address)

/-- The power behind the places that are not empty, as the contract adds it up. -/
def signedPower (members : List Member) (signatures : List Vrs) : Nat :=
  ((members.zip signatures).map fun place =>
    if place.2 = Vrs.zero then 0 else place.1.power.toNat).sum

/-- **Signatures by place that carry a quorum** of a valset for a digest. -/
structure Quorate (digest : Word) (current : Valset) (signatures : List Vrs) : Prop where
  fits : List.Forall₂ (FitsPlace digest) current.members signatures
  power : current.threshold.toNat ≤ signedPower current.members signatures

/-- There is one signature for each member, so no place is shifted. -/
theorem Quorate.length_eq {digest : Word} {current : Valset} {signatures : List Vrs}
    (h : Quorate digest current signatures) : current.members.length = signatures.length :=
  h.fits.length_eq

variable {target : QuorumTarget} {current : Valset} {confirms : List Confirm}

/-- At the place of a member in a quorum stands nothing, or a canonical signature of the member,
since the confirms of a quorum verify. -/
theorem StandsAt.fitsPlace {member : Member} {x : Vrs} (h : StandsAt confirms member x)
    (quorum : IsQuorum target current confirms) : FitsPlace target.digest member x := by
  rcases unsigned_or_exists_isFirstWith confirms member with hunsigned | ⟨c, hfirst⟩
  · exact Or.inl (h.zero_iff.mpr hunsigned)
  · -- The member's confirm verifies, so the member is found again for what is read of it.
    have hparse := h.parsed c hfirst
    have hverified := quorum.verified c hfirst.mem
    rw [hfirst.key_eq] at hverified
    exact Or.inr ⟨Vrs.canonical_of_parse hparse, recover_toBytes_of_verifyText hverified hparse⟩

/-! ### Power -/

/-- **The power behind the places of some members** is that of the signers among them. -/
theorem signedPower_of_standsAt (distinct : current.addresses.Nodup) {members : List Member}
    {signatures : List Vrs} (hplaces : List.Forall₂ (StandsAt confirms) members signatures)
    (hmembers : ∀ m ∈ members, m ∈ current.members) :
    signedPower members signatures = ((members.map Member.address).map fun a =>
      if a ∈ confirms.map Confirm.signer then (current.powerOf a).toNat else 0).sum := by
  induction hplaces with
  | nil => rfl
  | @cons m x members signatures hplace _ ih =>
    have hpower := Valset.powerOf_address distinct (hmembers m List.mem_cons_self)
    have hrest := ih fun m' hm' => hmembers m' (List.mem_cons_of_mem _ hm')
    rw [signedPower, List.zip_cons_cons, List.map_cons, List.sum_cons, List.map_cons,
      List.map_cons, List.sum_cons, ← hrest, hpower]
    -- A place is empty exactly if its member is no signer.
    by_cases hx : x = Vrs.zero
    · rw [if_pos hx, if_neg fun hmem => hplace.ne_zero_iff.mpr hmem hx]
      rfl
    · rw [if_neg hx, if_pos (hplace.ne_zero_iff.mp hx)]
      rfl

/-- The power behind a quorum's places is the power of its signers, each at the one place of its
address. -/
theorem signedPower_eq (quorum : IsQuorum target current confirms)
    (distinct : current.addresses.Nodup) {signatures : List Vrs}
    (h : orderSignatures current confirms = .ok signatures) :
    signedPower current.members signatures =
      (confirms.map fun c => (current.powerOf c.signer).toNat).sum := by
  calc signedPower current.members signatures
      = (current.addresses.map fun a => if a ∈ confirms.map Confirm.signer then
          (current.powerOf a).toNat else 0).sum :=
        signedPower_of_standsAt distinct (orderSignatures_eq_ok_iff.mp h) fun _ hm => hm
    _ = ((confirms.map Confirm.signer).map fun a => (current.powerOf a).toNat).sum :=
        (sum_map_of_sublist quorum.ordered distinct _).symm
    _ = (confirms.map fun c => (current.powerOf c.signer).toNat).sum := by
        rw [List.map_map]
        rfl

/-- A quorum that was lined up is one by place. This is where a confirm by its signer becomes a
signature by its place. -/
theorem quorate_of_orderSignatures (quorum : IsQuorum target current confirms)
    (distinct : current.addresses.Nodup) {signatures : List Vrs}
    (h : orderSignatures current confirms = .ok signatures) :
    Quorate target.digest current signatures := by
  refine ⟨(orderSignatures_eq_ok_iff.mp h).imp fun m x hplace => hplace.fitsPlace quorum, ?_⟩
  rw [signedPower_eq quorum distinct h]
  exact quorum.power

end Countersign
