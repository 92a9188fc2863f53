import Countersign.Proofs.Record.Confirms
import Countersign.Proofs.Signature.Canonical
import Countersign.Proofs.Store.Acceptance
import Countersign.Proofs.Store.Key
import Countersign.Proofs.Valset.Power
import Countersign.Store.Quorum

/-!
# What collected confirms come to

`Store.collect` keeps, for each member of a valset, at most one confirm out of whatever the replicas
hold. This module says what can be relied upon in what it keeps:

* each confirm is that of a member, is of the kind that was asked for, and verifies
  (`Store.confirmAmong_eq_some`);
* the members whose confirm is kept stand in the order of the valset, each with its own power
  (`Store.exists_sublist_collect`);
* if the collected power reaches the threshold, the confirms are a **quorum** (`IsQuorum`,
  `Store.isQuorum_of_threshold_le`).

Nothing is assumed of the candidates. Only that the valset names each address once: otherwise the
power behind one signer would count several times.
-/

namespace Countersign

/-- **A quorum of a valset** for a target: confirms that verify, of members in their order, who have
the power of a quorum together. A contract that asks for signatures in the order of the members can
be given these as they are. -/
structure IsQuorum (target : QuorumTarget) (valset : Valset) (confirms : List Confirm) : Prop where
  ordered : (confirms.map Confirm.signer).Sublist valset.addresses
  distinct : (confirms.map Confirm.signer).Nodup
  kinds : ∀ c ∈ confirms, c.kind = target.kind
  verified : ∀ c ∈ confirms, verifyText target.digest c.signature c.signer = .ok ()
  power : valset.threshold.toNat ≤
    (confirms.map fun c => (valset.powerOf c.signer).toNat).sum

namespace IsQuorum

variable {target : QuorumTarget} {valset : Valset} {confirms : List Confirm}

/-- Only the members count, neither the nonce of the valset nor its height or time. -/
theorem congr (h : IsQuorum target valset confirms) {other : Valset}
    (members : other.members = valset.members) : IsQuorum target other confirms := by
  obtain ⟨nonce, _, height, time⟩ := other
  obtain rfl := members
  exact ⟨h.ordered, h.distinct, h.kinds, h.verified, h.power⟩

end IsQuorum

namespace Store

variable {target : QuorumTarget} {members : List Member}

/-! ### One member -/

/-- An accepted confirm is of the kind that was asked for, names the signer of its key, and has a
signature that is checked as far as its record allows. For a valset's confirm this is the form
only. -/
theorem decodeConfirm_eq_ok {kind : AttestationKind} {nonce : UInt64} {signer : Address}
    {value : Bytes} {k : ConfirmKey} {c : Confirm}
    (h : decodeConfirm kind (confirmKey kind nonce signer) value = .ok (k, c)) :
    Confirm.decode? kind value = some c ∧ c.signer = signer ∧
      c.checkSignature nonce = .ok () := by
  have hkey : ConfirmKey.parse (confirmKey kind nonce signer) =
      .ok ⟨.ofKind kind, nonce, signer⟩ :=
    ConfirmKey.parse_render _ (Namespace.isConfirm_ofKind kind)
  -- The key is read back, so only the three checks of the record remain: its form, its signer, and
  -- its signature.
  obtain ⟨hparse, -, hdecode, hsigner, hcheck⟩ := decodeConfirm_eq_ok_iff.mp h
  obtain rfl := Except.ok.inj (hkey.symm.trans hparse)
  exact ⟨hdecode, hsigner, hcheck⟩

/-- The confirm that one candidate stands for, if it is accepted under the member's key and verifies
against the digest. Both tests are needed: the first knows the record, the second what was to be
signed. -/
def confirmIn? (target : QuorumTarget) (member : Member) (value : Bytes) : Option Confirm :=
  match decodeConfirm target.kind (confirmKey target.kind target.nonce member.address) value with
  | .error _ => none
  | .ok (_, confirm) =>
    match verifyText target.digest confirm.signature member.address with
    | .ok () => some confirm
    | .error _ => none

/-- The first candidate that stands for a confirm is the one that is kept. -/
theorem confirmAmong_eq_findSome? (target : QuorumTarget) (member : Member) (values : List Bytes) :
    confirmAmong target member values = values.findSome? (confirmIn? target member) :=
  rfl

/-- A candidate that counts decodes, names the member, and has a signature of it. -/
theorem confirmIn?_eq_some {member : Member} {value : Bytes} {c : Confirm}
    (h : confirmIn? target member value = some c) :
    Confirm.decode? target.kind value = some c ∧ c.signer = member.address ∧
      verifyText target.digest c.signature member.address = .ok () := by
  unfold confirmIn? at h
  split at h
  · cases h
  next k confirm hdecode =>
    obtain ⟨hrecord, hsigner, -⟩ := decodeConfirm_eq_ok hdecode
    split at h
    next hverify =>
      obtain rfl := Option.some.inj h
      exact ⟨hrecord, hsigner, hverify⟩
    · cases h

/-- What is kept of the candidates for a member is a confirm of that member, and verifies. -/
theorem confirmAmong_eq_some {member : Member} {values : List Bytes} {c : Confirm}
    (h : confirmAmong target member values = some c) :
    c.signer = member.address ∧ c.kind = target.kind ∧
      verifyText target.digest c.signature c.signer = .ok () := by
  rw [confirmAmong_eq_findSome?] at h
  obtain ⟨value, -, hvalue⟩ := List.exists_of_findSome?_eq_some h
  obtain ⟨hrecord, hsigner, hverify⟩ := confirmIn?_eq_some hvalue
  rw [hsigner]
  exact ⟨rfl, Confirm.kind_of_decode? hrecord, hverify⟩

/-- A confirm's own record is accepted under its signer's key, if its signature passes what can be
checked of it. -/
theorem decodeConfirm_encode {c : Confirm} {nonce : UInt64}
    (h : c.checkSignature nonce = .ok ()) :
    decodeConfirm c.kind (confirmKey c.kind nonce c.signer) (Bytes.ofText c.encode) =
      .ok (⟨.ofKind c.kind, nonce, c.signer⟩, c) := by
  have hkey : ConfirmKey.parse (confirmKey c.kind nonce c.signer) =
      .ok ⟨.ofKind c.kind, nonce, c.signer⟩ :=
    ConfirmKey.parse_render _ (Namespace.isConfirm_ofKind c.kind)
  exact decodeConfirm_eq_ok_iff.mpr ⟨hkey, rfl, c.decode?_encode, rfl, h⟩

/-- A member's own record in front of the candidates is the one that is kept. What stands behind it
is not looked at. -/
theorem confirmAmong_encode {member : Member} {c : Confirm} (hkind : c.kind = target.kind)
    (hsigner : c.signer = member.address) (hcheck : c.checkSignature target.nonce = .ok ())
    (hverify : verifyText target.digest c.signature member.address = .ok ()) (rest : List Bytes) :
    confirmAmong target member (Bytes.ofText c.encode :: rest) = some c := by
  have hdecode := decodeConfirm_encode hcheck
  rw [hkind, hsigner] at hdecode
  rw [confirmAmong, List.findSome?_cons]
  simp only [hdecode, hverify]

/-- A member's own record among the candidates: some confirm is kept, perhaps another one that
stands before it and verifies as well. A signature can be made in more than one way. -/
theorem exists_confirmAmong {member : Member} {c : Confirm} (hkind : c.kind = target.kind)
    (hsigner : c.signer = member.address) (hcheck : c.checkSignature target.nonce = .ok ())
    (hverify : verifyText target.digest c.signature member.address = .ok ()) {values : List Bytes}
    (hmem : Bytes.ofText c.encode ∈ values) :
    ∃ confirm, confirmAmong target member values = some confirm := by
  obtain ⟨front, rest, rfl⟩ := List.append_of_mem hmem
  have hown := confirmAmong_encode hkind hsigner hcheck hverify rest
  rw [confirmAmong] at hown ⊢
  rw [List.findSome?_append, hown]
  exact ⟨_, Option.or_some⟩

/-! ### All members -/

/-- Collecting goes member by member, and who has no confirm is passed over. -/
theorem collect_cons (member : Member) (values : List Bytes) (candidates : List (List Bytes)) :
    collect target (member :: members) (values :: candidates) =
      match confirmAmong target member values with
      | some c => (member.power, c) :: collect target members candidates
      | none => collect target members candidates := by
  simp only [collect, List.zip_cons_cons, List.filterMap_cons]
  cases confirmAmong target member values <;> rfl

/-- **The members behind collected confirms**, in the order of all members, each with its power. A
collection is a choice of members, and this is the choice. -/
theorem exists_sublist_collect (target : QuorumTarget) (members : List Member)
    (candidates : List (List Bytes)) :
    ∃ kept : List Member, kept.Sublist members ∧
      kept.map Member.power = (collect target members candidates).map Prod.fst ∧
      kept.map Member.address =
        (collect target members candidates).map fun collected => collected.2.signer := by
  -- On the members: each of them is skipped, or kept together with its confirm.
  induction members generalizing candidates with
  | nil => exact ⟨[], List.Sublist.refl _, rfl, rfl⟩
  | cons member members ih =>
    cases candidates with
    | nil => exact ⟨[], List.nil_sublist _, rfl, rfl⟩
    | cons values candidates =>
      obtain ⟨kept, hsub, hpower, haddress⟩ := ih candidates
      rw [collect_cons]
      cases hc : confirmAmong target member values with
      | none => exact ⟨kept, hsub.cons _, hpower, haddress⟩
      | some c =>
        obtain ⟨hsigner, -, -⟩ := confirmAmong_eq_some hc
        refine ⟨member :: kept, hsub.cons_cons _, ?_, ?_⟩
        · rw [List.map_cons, List.map_cons, hpower]
        · rw [List.map_cons, List.map_cons, haddress, hsigner]

/-- **A member's record is collected** if it is among the candidates wherever the member's address
stands. The power is that of the first member of the address. -/
theorem exists_mem_collect {c : Confirm} (hkind : c.kind = target.kind)
    (hcheck : c.checkSignature target.nonce = .ok ())
    (hverify : verifyText target.digest c.signature c.signer = .ok ())
    {candidates : List (List Bytes)}
    (hheld : List.Forall₂ (fun m values => m.address = c.signer → Bytes.ofText c.encode ∈ values)
      members candidates) {member : Member}
    (hfound : members.find? (·.address == c.signer) = some member) :
    ∃ confirm, (member.power, confirm) ∈ collect target members candidates ∧
      confirm.signer = c.signer := by
  -- On the members with their candidates, up to the one that is found.
  induction hheld with
  | nil => cases hfound
  | @cons first values members candidates hfirst _ ih =>
    rw [List.find?_cons] at hfound
    cases haddress : first.address == c.signer with
    -- This is the member. Its own record is there, so some confirm of it is kept.
    | true =>
      rw [haddress] at hfound
      obtain rfl := Option.some.inj hfound
      have hsigner : first.address = c.signer := eq_of_beq haddress
      rw [← hsigner] at hverify
      obtain ⟨confirm, hconfirm⟩ :=
        exists_confirmAmong hkind hsigner.symm hcheck hverify (hfirst hsigner)
      refine ⟨confirm, ?_, ?_⟩
      · rw [collect_cons, hconfirm]
        exact List.mem_cons_self
      · rw [(confirmAmong_eq_some hconfirm).1, hsigner]
    -- It is behind this one, and what is collected there is collected here.
    | false =>
      rw [haddress] at hfound
      obtain ⟨confirm, hmem, hsigner⟩ := ih hfound
      refine ⟨confirm, ?_, hsigner⟩
      rw [collect_cons]
      cases confirmAmong target first values with
      | none => exact hmem
      | some other => exact List.mem_cons_of_mem _ hmem

/-- Every collected confirm verifies and is of the kind that was asked for, whoever brought it. -/
theorem of_mem_collect {candidates : List (List Bytes)} {c : Confirm}
    (h : c ∈ (collect target members candidates).map Prod.snd) :
    c.kind = target.kind ∧ verifyText target.digest c.signature c.signer = .ok () := by
  obtain ⟨collected, hmem, rfl⟩ := List.mem_map.mp h
  obtain ⟨⟨member, values⟩, -, hmember⟩ := List.mem_filterMap.mp hmem
  obtain ⟨c', hc', rfl⟩ := Option.map_eq_some_iff.mp hmember
  exact (confirmAmong_eq_some hc').2

/-- The collected power is no more than the sum of the powers, from which it may differ by stopping
at the greatest count. Stopping can only cost a quorum, never make one. -/
theorem toNat_collectedPower_le (collected : List (UInt64 × Confirm)) :
    (collectedPower collected).toNat ≤ (collected.map fun c => c.1.toNat).sum := by
  unfold collectedPower
  rw [toNat_foldl_saturatingAdd, UInt64.toNat_zero, Nat.zero_add]
  exact Nat.min_le_left _ _

/-- **Confirms whose power reaches the threshold are a quorum.** That the valset names no address
twice is needed for the power: each confirm counts once in a quorum. -/
theorem isQuorum_of_threshold_le {valset : Valset} (distinct : valset.addresses.Nodup)
    {candidates : List (List Bytes)}
    (h : valset.threshold ≤ collectedPower (collect target valset.members candidates)) :
    IsQuorum target valset ((collect target valset.members candidates).map Prod.snd) := by
  obtain ⟨kept, hsub, hpower, haddress⟩ :=
    exists_sublist_collect target valset.members candidates
  -- The signers are the addresses of the members that were chosen, in this order.
  have hsigners : ((collect target valset.members candidates).map Prod.snd).map Confirm.signer =
      kept.map Member.address := by
    rw [haddress, List.map_map]
    rfl
  have hordered : (kept.map Member.address).Sublist valset.addresses := hsub.map _
  refine ⟨?_, ?_, fun c hc => (of_mem_collect hc).1, fun c hc => (of_mem_collect hc).2, ?_⟩
  · rw [hsigners]
    exact hordered
  · rw [hsigners]
    exact distinct.sublist hordered
  · -- The power that was collected is that of the members behind the confirms, and each of them has
    -- the power which its address has in the valset.
    calc valset.threshold.toNat
        ≤ (collectedPower (collect target valset.members candidates)).toNat :=
          UInt64.le_iff_toNat_le.mp h
      _ ≤ ((collect target valset.members candidates).map fun c => c.1.toNat).sum :=
          toNat_collectedPower_le _
      _ = ((kept.map Member.power).map UInt64.toNat).sum := by
          rw [hpower, List.map_map]
          rfl
      _ = ((kept.map Member.address).map fun a => (valset.powerOf a).toNat).sum := by
          rw [List.map_map, List.map_map]
          congr 1
          refine List.map_congr_left fun m hm => ?_
          exact congrArg UInt64.toNat (Valset.powerOf_address distinct (hsub.subset hm)).symm
      _ = (((collect target valset.members candidates).map Prod.snd).map
            fun c => (valset.powerOf c.signer).toNat).sum := by
          rw [← hsigners, List.map_map]
          rfl

/-! ### Some valset, and some confirm that verifies -/

/-- A valset of one member, which alone is a quorum of it. Witnesses that need a quorum and nothing
else use it. -/
def soleValset (signer : Address) : Valset :=
  ⟨1, [⟨1, signer⟩], 0, .epoch⟩

theorem contains_soleValset (signer : Address) : (soleValset signer).contains signer = true :=
  Valset.contains_iff_mem_addresses.mpr List.mem_cons_self

theorem powerOf_soleValset (signer : Address) : (soleValset signer).powerOf signer = 1 := by
  simp [soleValset, Valset.powerOf]

theorem threshold_soleValset (signer : Address) : (soleValset signer).threshold = 1 := by
  change Valset.twoThirds (saturatingAdd 0 1) = 1
  decide

/-- There is a confirm that is accepted and verifies, for some commitment. It is made with a key, so
that verification is not an empty condition. -/
theorem exists_confirm : ∃ (target : QuorumTarget) (root : Word) (c : Confirm),
    target.kind = .dataCommitment ∧ bootstrapNonce < target.nonce ∧
      target.digest = commitmentDigest target.nonce root ∧ c.kind = target.kind ∧
      c.checkSignature target.nonce = .ok () ∧
      verifyText target.digest c.signature c.signer = .ok () := by
  obtain ⟨signer, hverify⟩ := Vrs.exists_verifyText_keyless
  refine ⟨⟨.dataCommitment, 2, commitmentDigest 2 0⟩, 0,
    .commitment ⟨Vrs.keyless.render, signer, 0⟩, rfl, by decide, rfl, ?_, ?_, ?_⟩
  · rw [Confirm.kind]
  · rw [Confirm.checkSignature]
    exact hverify
  · rw [Confirm.signature, Confirm.signer]
    exact hverify

end Store

end Countersign
