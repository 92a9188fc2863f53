import Countersign.Proofs.Store.Polling

/-!
# Candidates that are added do no harm

Replicas that misbehave may hold anything under any key, and bring it among the candidates of a
poll. This module compares two collections for the same target: one from some candidates, and one
from the same candidates with others put between them. The second one has at least the power of the
first (`Store.insertions_only_add`), and what it has more is the power of members of whom a confirm
was added.

The candidates are given by what there is under each key. Only the keys of the members are compared,
so whatever is added elsewhere makes no difference.

A candidate that does not decode, or does not verify, is passed over, and so it hides nothing behind
it: whether a member counts depends on which candidates there are, not on their order
(`Store.isCounted_iff`). Everything else is adding up.
-/

namespace Countersign.Store

open Routine

variable {target : QuorumTarget} {members : List Member} {held held' : String → List Bytes}

/-- The key under which a member's confirm for a target is looked for. Candidates under any other
key are never read for it. -/
def memberKey (target : QuorumTarget) (member : Member) : String :=
  confirmKey target.kind target.nonce member.address

/-- The confirms of members, from what is held under their keys. Giving the candidates by key, and
not as one list per member, lets two collections be compared without a word about their order. -/
def collectHeld (target : QuorumTarget) (members : List Member) (held : String → List Bytes) :
    List (UInt64 × Confirm) :=
  collect target members (members.map fun m => held (memberKey target m))

/-! ### Members that count -/

/-- Whether a member counts: one of the candidates under its key is its confirm. -/
def isCounted (target : QuorumTarget) (held : String → List Bytes) (member : Member) : Bool :=
  (confirmAmong target member (held (memberKey target member))).isSome

/-- **A candidate that is none hides nothing.** A member counts if any of its candidates does,
wherever that one stands among the others. -/
theorem isCounted_iff {member : Member} :
    isCounted target held member = true ↔
      ∃ value ∈ held (memberKey target member), (confirmIn? target member value).isSome := by
  unfold isCounted
  -- The search is for the first one, but whether there is one does not depend on the order.
  rw [confirmAmong_eq_findSome?]
  exact List.findSome?_isSome_iff

/-- The power of the members that count, as a natural number. The sum in the store stops at the
greatest `UInt64`, and gains would be lost there. -/
def countedPower (target : QuorumTarget) (members : List Member) (held : String → List Bytes) :
    Nat :=
  ((members.filter (isCounted target held)).map fun m => m.power.toNat).sum

/-- Collecting gives one entry for each member that counts, with the power of the member, whatever
the confirm says. -/
theorem map_power_collectHeld (target : QuorumTarget) (members : List Member)
    (held : String → List Bytes) :
    (collectHeld target members held).map (fun c => c.1.toNat) =
      (members.filter (isCounted target held)).map fun m => m.power.toNat := by
  unfold collectHeld
  induction members with
  | nil => rfl
  | cons member members ih =>
    rw [List.map_cons, collect_cons, List.filter_cons, isCounted]
    cases confirmAmong target member (held (memberKey target member)) with
    | none => exact ih
    | some c => exact congrArg (member.power.toNat :: ·) ih

/-- The collected power is that of the members that count, up to the ceiling. -/
theorem toNat_collectedPower_collectHeld (target : QuorumTarget) (members : List Member)
    (held : String → List Bytes) :
    (collectedPower (collectHeld target members held)).toNat =
      min (countedPower target members held) (UInt64.size - 1) := by
  unfold collectedPower countedPower
  rw [toNat_foldl_saturatingAdd, UInt64.toNat_zero, Nat.zero_add, map_power_collectHeld]

/-! ### Two collections -/

/-- The same candidates with others between them, under the keys of the members. Under other keys
there may be anything on either side. -/
def Inserted (target : QuorumTarget) (members : List Member) (held held' : String → List Bytes) :
    Prop :=
  ∀ m ∈ members, (held (memberKey target m)).Sublist (held' (memberKey target m))

/-- The members that count for the first time: with the added candidates, and not before. -/
def gained (target : QuorumTarget) (members : List Member) (held held' : String → List Bytes) :
    List Member :=
  members.filter fun m => isCounted target held' m && !isCounted target held m

/-- A member that counts goes on counting, since its candidate is still among the others. -/
theorem Inserted.isCounted (h : Inserted target members held held') {member : Member}
    (hmember : member ∈ members) (hcounted : isCounted target held member = true) :
    Store.isCounted target held' member = true := by
  obtain ⟨value, hvalue, hconfirm⟩ := isCounted_iff.mp hcounted
  exact isCounted_iff.mpr ⟨value, (h member hmember).subset hvalue, hconfirm⟩

/-- **What is counted more** is the power of the members that count for the first time. The
induction is on the members. -/
theorem Inserted.countedPower_eq (h : Inserted target members held held') :
    countedPower target members held' = countedPower target members held +
      ((gained target members held held').map fun m => m.power.toNat).sum := by
  unfold countedPower gained
  induction members with
  | nil => rfl
  | cons member members ih =>
    have hrest := ih fun m hm => h m (List.mem_cons_of_mem _ hm)
    rw [List.filter_cons, List.filter_cons, List.filter_cons]
    -- The member counts in both, in the second only, or in none.
    cases hbefore : Store.isCounted target held member with
    | true =>
      have hafter := h.isCounted List.mem_cons_self hbefore
      simp [hafter, hrest]
      omega
    | false =>
      cases hafter : Store.isCounted target held' member with
      | true =>
        simp [hrest]
        omega
      | false =>
        simp [hrest]

/-- **A member counts for the first time** because of a candidate that is new under its key. The
candidate decodes, names the member and verifies, so nobody but the member's key can have brought it
about. -/
theorem exists_inserted_of_mem_gained {member : Member}
    (h : member ∈ gained target members held held') :
    ∃ value c, value ∈ held' (memberKey target member) ∧ value ∉ held (memberKey target member) ∧
      Confirm.decode? target.kind value = some c ∧ c.signer = member.address ∧
      verifyText target.digest c.signature member.address = .ok () := by
  obtain ⟨-, hcounts⟩ := List.mem_filter.mp h
  rw [Bool.and_eq_true, Bool.not_eq_true'] at hcounts
  obtain ⟨value, hvalue, hconfirm⟩ := isCounted_iff.mp hcounts.1
  obtain ⟨c, hc⟩ := Option.isSome_iff_exists.mp hconfirm
  refine ⟨value, c, hvalue, ?_, confirmIn?_eq_some hc⟩
  intro hheld
  -- If it were not new, the member would have counted before.
  have hbefore : isCounted target held member = true :=
    isCounted_iff.mpr ⟨value, hheld, hconfirm⟩
  rw [hcounts.2] at hbefore
  cases hbefore

/-- The candidates in an answer: none if there is no answer. To a collection a silent replica is
like an empty one. -/
def candidatesOf : Except OverlayError (List Bytes) → List Bytes
  | .ok values => values
  | .error _ => []

/-- **Candidates that are added only add.** If others are put between the candidates for the
members, and anything at all under other keys, the power that is collected

* does not become less;
* becomes more, up to the ceiling, by the power of members of whom one of the new candidates under
  their own key decodes, names the member, and has a signature of the digest that verifies for it.

No answer of the replicas makes a collection fail: their candidates are taken as they are, and a
poll fails only if it is cancelled, or at its deadline for want of power. -/
theorem insertions_only_add {valset : Valset} (h : Inserted target valset.members held held') :
    collectedPower (collectHeld target valset.members held) ≤
      collectedPower (collectHeld target valset.members held') ∧
    (collectedPower (collectHeld target valset.members held')).toNat =
      min ((collectedPower (collectHeld target valset.members held)).toNat +
        ((gained target valset.members held held').map fun m => m.power.toNat).sum)
        (UInt64.size - 1) ∧
    (∀ m ∈ gained target valset.members held held', ∃ value c,
      value ∈ held' (memberKey target m) ∧ value ∉ held (memberKey target m) ∧
      Confirm.decode? target.kind value = some c ∧ c.signer = m.address ∧
      verifyText target.digest c.signature m.address = .ok ()) ∧
    (∀ config answers, Follows (fetchCandidates config target valset)
      [⟨.getAll (valset.members.map (memberKey target)) config.requestTimeout, answers⟩]
      (answers.map candidatesOf)) ∧
    ∀ config deadline started polls known t error,
      Follows (poll config target valset deadline started polls known) t (.error error) →
      error = .cancelled ∨ ∃ candidates,
        collectedPower (collect target valset.members candidates) < valset.threshold ∧
        error = .quorumTimeout target.nonce
          (collectedPower (collect target valset.members candidates)) valset.threshold := by
  have hbefore := toNat_collectedPower_collectHeld target valset.members held
  have hafter := toNat_collectedPower_collectHeld target valset.members held'
  -- Both powers are cut off at the ceiling, and the first two points are about the cut sums.
  rw [h.countedPower_eq] at hafter
  refine ⟨?_, ?_, fun m hm => exists_inserted_of_mem_gained hm, ?_, ?_⟩
  · rw [UInt64.le_iff_toNat_le]
    omega
  · omega
  · -- A reading ends with the candidates of whatever is answered.
    intro config answers
    exact .perform_bind (.done _)
  · -- A poll has two ways to fail, and no candidate is a third one.
    intro config deadline started polls known t error hfollows
    cases (conforms_poll_ends _ _ _).follows hfollows with
    | cancelled => exact Or.inl rfl
    | late candidates short => exact Or.inr ⟨candidates, short, rfl⟩

/-- **A confirm behind a record that is none** makes the only member count. The record of no bytes
stands first, so it would hide the confirm if it could. -/
theorem insertions_only_add_of_sole :
    ∃ (target : QuorumTarget) (signer : Address) (value : Bytes),
      Inserted target (soleValset signer).members (fun _ => []) (fun _ => [[], value]) ∧
      (gained target (soleValset signer).members (fun _ => []) (fun _ => [[], value])) =
        [⟨1, signer⟩] ∧
      (collectedPower
        (collectHeld target (soleValset signer).members fun _ => [[], value])).toNat = 1 := by
  obtain ⟨target, -, c, -, -, -, hkind, hcheck, hverify⟩ := exists_confirm
  have hinserted : Inserted target (soleValset c.signer).members (fun _ => [])
      (fun _ => [[], Bytes.ofText c.encode]) := fun _ _ => List.nil_sublist _
  have hgained : gained target (soleValset c.signer).members (fun _ => [])
      (fun _ => [[], Bytes.ofText c.encode]) = [⟨1, c.signer⟩] := by
    have hcounted : isCounted target (fun _ => [[], Bytes.ofText c.encode]) ⟨1, c.signer⟩ = true :=
      Option.isSome_iff_exists.mpr (exists_confirmAmong hkind rfl hcheck hverify (by simp))
    have hnone : isCounted target (fun _ => []) ⟨1, c.signer⟩ = false := rfl
    show [(⟨1, c.signer⟩ : Member)].filter _ = _
    rw [List.filter_cons, hcounted, hnone]
    rfl
  have hpower := (insertions_only_add hinserted).2.1
  rw [hgained] at hpower
  exact ⟨target, c.signer, Bytes.ofText c.encode, hinserted, hgained, hpower⟩

end Countersign.Store
