import Countersign.Proofs.Store.Polling

/-!
# Quorums that come from the cache

A quorum that was reached is remembered by its **target** alone: kind, nonce and digest. A later
call for the same target is given it back, whatever valset it was made with. This module says what
such an answer is worth, over every interleaving of calls of one store, with replicas that hold
anything and a cache that forgets what it likes.

* An answer is always a quorum of the valset of *some* call for the target: of the call itself, or
  of the call that remembered it (`Store.exists_isQuorum_of_answer`).
* It is a quorum of the valset of the call itself exactly if its signers are members of that
  valset, in its order, with the power of its threshold; what else makes a quorum holds in any
  case. So calls for one target may share a cache as long as their valsets have the same members
  (`Store.answer_isQuorum_iff`).
* Calls with different members may be given each other's quorums
  (`Store.answer_not_isQuorum_of_valset`).
-/

namespace Countersign.Store

open Routine

/-- **A call for a quorum** of a store, with what it is asked. All calls of one store share its
cache. -/
structure QuorumCall where
  target : QuorumTarget
  valset : Valset
  deadline : Nat

/-- What a call does, from the look at the cache to its answer. -/
def QuorumCall.routine (config : StoreConfig) (call : QuorumCall) :
    Routine (Except StoreError (List Confirm)) :=
  queryQuorum config call.target call.valset call.deadline

/-- A cache of quorums invents nothing: what it gives back for a target was remembered for it
before. It may forget, so a call may poll although another one has an answer already. -/
def CacheFaithful (course : List (Nat × Exchange)) : Prop :=
  ∀ before n target records after,
    course = before ++ (n, ⟨.recall target, some records⟩) :: after →
      ∃ m, (m, ⟨.remember target records, ()⟩) ∈ before

/-- What the cache gives back was remembered by some call, which need not have ended. -/
theorem CacheFaithful.exists_remember {course : List (Nat × Exchange)}
    (faithful : CacheFaithful course) {n : Nat} {target : QuorumTarget} {records : List Bytes}
    (h : (n, ⟨.recall target, some records⟩) ∈ course) :
    ∃ m, (m, ⟨.remember target records, ()⟩) ∈ course := by
  obtain ⟨before, after, rfl⟩ := List.append_of_mem h
  obtain ⟨m, hm⟩ := faithful _ _ _ _ _ rfl
  exact ⟨m, List.mem_append_left _ hm⟩

variable {config : StoreConfig} {calls : Nat → QuorumCall}

/-- **Every answer is a quorum of some call's valset** for the same target: the call's own, or that
of a call which remembered it. Nobody else remembers anything, so the records that come back were
collected with that valset. -/
theorem exists_isQuorum_of_answer (h : Interleaving fun n => (calls n).routine config)
    (faithful : CacheFaithful h.course) (distinct : ∀ n, (calls n).valset.addresses.Nodup)
    {n : Nat} {confirms : List Confirm}
    (hanswer : Follows ((calls n).routine config) (ofCall n h.course) (.ok confirms)) :
    ∃ m, (calls m).target = (calls n).target ∧
      IsQuorum (calls n).target (calls m).valset confirms ∧
      ((∀ records, (n, ⟨.recall (calls n).target, some records⟩) ∉ h.course) → m = n) := by
  rcases queryQuorum_follows (distinct n) hanswer with ⟨records, hcourse, hdecode⟩ | ⟨_, _, hquorum⟩
  · -- The records were remembered by another call, which had reached a quorum of its own valset.
    have hmem : (n, ⟨.recall (calls n).target, some records⟩) ∈ h.course := by
      rw [← mem_ofCall, hcourse]
      exact List.mem_cons_self
    obtain ⟨m, hm⟩ := faithful.exists_remember hmem
    obtain ⟨_, hasks⟩ := h.exists_asks hm
    obtain ⟨htarget, confirms', hquorum, rfl⟩ := queryQuorum_asks_remember (distinct m) hasks
    rw [← htarget] at hquorum
    -- They come back as the confirms that they were, and so with that quorum.
    rw [decodeQuorum_encode hquorum.kinds] at hdecode
    obtain rfl := Except.ok.inj hdecode
    exact ⟨m, htarget.symm, hquorum, fun polled => absurd hmem (polled _)⟩
  · -- The call polled, and reached the quorum itself.
    exact ⟨n, rfl, hquorum, fun _ => rfl⟩

/-! ### Two calls for one target -/

/-- **The only member's own record makes a quorum**, in the first poll. -/
theorem queryQuorum_follows_sole {target : QuorumTarget} {confirm : Confirm}
    (hkind : confirm.kind = target.kind) (hcheck : confirm.checkSignature target.nonce = .ok ())
    (hverify : verifyText target.digest confirm.signature confirm.signer = .ok ())
    (deadline : Nat) :
    Follows (queryQuorum config target (soleValset confirm.signer) deadline)
      [⟨.recall target, none⟩, ⟨.now, (0 : Nat)⟩, ⟨.isCancelled, false⟩,
        ⟨.getAll [confirmKey target.kind target.nonce confirm.signer] config.requestTimeout,
          [.ok [Bytes.ofText confirm.encode]]⟩,
        ⟨.remember target [Bytes.ofText confirm.encode], ()⟩]
      (.ok [confirm]) := by
  have hkept : confirmAmong target ⟨1, confirm.signer⟩ [Bytes.ofText confirm.encode] =
      some confirm :=
    confirmAmong_encode hkind rfl hcheck hverify []
  -- The record is collected, and the power of its member is the threshold.
  have hcollect : collect target (soleValset confirm.signer).members
      [[Bytes.ofText confirm.encode]] = [(1, confirm)] := by
    rw [soleValset, collect_cons, hkept]
    rfl
  refine queryQuorum_follows_first_poll 0 ?_ hcollect ?_
  · rw [threshold_soleValset]
    decide
  · rw [threshold_soleValset]
    change 1 ≤ saturatingAdd 0 1
    decide

/-- A remembered quorum is the answer, whoever is the only member. The valset is looked at for its
threshold alone, which must not be zero. -/
theorem queryQuorum_follows_recall {target : QuorumTarget} {confirm : Confirm}
    (hkind : confirm.kind = target.kind) (other : Address) (deadline : Nat) :
    Follows (queryQuorum config target (soleValset other) deadline)
      [⟨.recall target, some [Bytes.ofText confirm.encode]⟩] (.ok [confirm]) := by
  have hkinds : ∀ c ∈ [confirm], c.kind = target.kind := by
    intro c hc
    rw [List.mem_singleton.mp hc, hkind]
  have hdecode : decodeQuorum target.kind [Bytes.ofText confirm.encode] = .ok [confirm] :=
    decodeQuorum_encode hkinds
  rw [queryQuorum, threshold_soleValset, if_neg (by decide)]
  refine .perform_bind ?_
  exact follows_done_iff.mpr ⟨rfl, hdecode.symm⟩

/-- Two calls for one target, the second one after the first, with valsets of one member each: the
signer of a confirm, and another address. -/
def successiveCalls (target : QuorumTarget) (signer other : Address) : Nat → QuorumCall
  | 0 => ⟨target, soleValset signer, 1000⟩
  | _ => ⟨target, soleValset other, 1000⟩

/-- The second of two calls is given what the first one found. The calls do not even overlap. -/
def successiveCourse (config : StoreConfig) (target : QuorumTarget) (confirm : Confirm) :
    List (Nat × Exchange) :=
  -- The first call polls once, and remembers what it found.
  [(0, ⟨.recall target, none⟩), (0, ⟨.now, (0 : Nat)⟩), (0, ⟨.isCancelled, false⟩),
    (0, ⟨.getAll [confirmKey target.kind target.nonce confirm.signer] config.requestTimeout,
      [.ok [Bytes.ofText confirm.encode]]⟩),
    (0, ⟨.remember target [Bytes.ofText confirm.encode], ()⟩),
    -- The second one finds it at once.
    (1, ⟨.recall target, some [Bytes.ofText confirm.encode]⟩)]

/-- Each of the two calls has exactly its part of this course. -/
theorem successive_begins {target : QuorumTarget} {confirm : Confirm}
    (hkind : confirm.kind = target.kind) (hcheck : confirm.checkSignature target.nonce = .ok ())
    (hverify : verifyText target.digest confirm.signature confirm.signer = .ok ())
    (other : Address) (n : Nat) :
    Begins ((successiveCalls target confirm.signer other n).routine config)
      (ofCall n (successiveCourse config target confirm)) := by
  match n with
  | 0 => exact (queryQuorum_follows_sole hkind hcheck hverify 1000).begins
  | 1 => exact (queryQuorum_follows_recall hkind other 1000).begins
  | n + 2 => exact .nil _

/-- The cache gives back what it was told to remember. -/
theorem successive_faithful (config : StoreConfig) (target : QuorumTarget) (confirm : Confirm) :
    CacheFaithful (successiveCourse config target confirm) := by
  intro before n target' records after hsplit
  -- Only the last of the six exchanges is an answer of the cache.
  rcases before with _ | ⟨_, _ | ⟨_, _ | ⟨_, _ | ⟨_, _ | ⟨_, _ | ⟨_, before⟩⟩⟩⟩⟩⟩ <;>
    simp [successiveCourse] at hsplit
  obtain ⟨rfl, rfl, rfl, rfl, rfl, ⟨-, rfl, rfl⟩, -⟩ := hsplit
  exact ⟨0, by simp⟩

/-- No valset names an address twice, so the calls are ordinary ones. -/
theorem successive_distinct (target : QuorumTarget) (signer other : Address) (n : Nat) :
    (successiveCalls target signer other n).valset.addresses.Nodup := by
  cases n <;> simp [successiveCalls, soleValset, Valset.addresses]

/-! ### What an answer is worth -/

/-- **When an answer is a quorum of the valset that was asked about.** It always is one of the
valset of some call `m` for the same target, which is the call itself unless the cache answered.
It is one of the call's own valset exactly if the signers are members of that valset, in its
order, and have the power of its threshold, and so whenever the two valsets have the same members.
-/
theorem answer_isQuorum_iff (h : Interleaving fun n => (calls n).routine config)
    (faithful : CacheFaithful h.course) (distinct : ∀ n, (calls n).valset.addresses.Nodup)
    {n : Nat} {confirms : List Confirm}
    (hanswer : Follows ((calls n).routine config) (ofCall n h.course) (.ok confirms)) :
    (∃ m, (calls m).target = (calls n).target ∧
      IsQuorum (calls n).target (calls m).valset confirms ∧
      ((∀ records, (n, ⟨.recall (calls n).target, some records⟩) ∉ h.course) → m = n) ∧
      ((calls m).valset.members = (calls n).valset.members →
        IsQuorum (calls n).target (calls n).valset confirms)) ∧
    (IsQuorum (calls n).target (calls n).valset confirms ↔
      (confirms.map Confirm.signer).Sublist (calls n).valset.addresses ∧
      (calls n).valset.threshold.toNat ≤
        (confirms.map fun c => ((calls n).valset.powerOf c.signer).toNat).sum) := by
  obtain ⟨m, htarget, hquorum, hpolled⟩ := exists_isQuorum_of_answer h faithful distinct hanswer
  refine ⟨⟨m, htarget, hquorum, hpolled, fun same => hquorum.congr same.symm⟩, ?_⟩
  constructor
  · intro own
    exact ⟨own.ordered, own.power⟩
  · rintro ⟨ordered, power⟩
    -- Distinct signers, kinds and signatures do not depend on the valset.
    exact ⟨ordered, hquorum.distinct, hquorum.kinds, hquorum.verified, power⟩

/-- **The two calls get one answer**, a quorum for the first of them and none for the second. Which
it is for each is read off the equivalence. -/
theorem answer_isQuorum_iff_of_successive :
    ∃ (target : QuorumTarget) (confirm : Confirm) (other : Address)
      (h : Interleaving fun n => (successiveCalls target confirm.signer other n).routine .standard),
      (Follows (queryQuorum .standard target (soleValset confirm.signer) 1000)
          (ofCall 0 h.course) (.ok [confirm]) ∧
        IsQuorum target (soleValset confirm.signer) [confirm]) ∧
      Follows (queryQuorum .standard target (soleValset other) 1000)
          (ofCall 1 h.course) (.ok [confirm]) ∧
        ¬ IsQuorum target (soleValset other) [confirm] := by
  obtain ⟨target, -, confirm, -, -, -, hkind, hcheck, hverify⟩ := exists_confirm
  obtain ⟨other, hother⟩ := exists_ne_address confirm.signer
  -- The two calls, one after the other, with one cache.
  let h : Interleaving fun n =>
      (successiveCalls target confirm.signer other n).routine .standard :=
    ⟨successiveCourse .standard target confirm, successive_begins hkind hcheck hverify other⟩
  have hfirst : Follows (queryQuorum .standard target (soleValset confirm.signer) 1000)
      (ofCall 0 h.course) (.ok [confirm]) :=
    queryQuorum_follows_sole hkind hcheck hverify 1000
  have hsecond : Follows (queryQuorum .standard target (soleValset other) 1000)
      (ofCall 1 h.course) (.ok [confirm]) :=
    queryQuorum_follows_recall hkind other 1000
  -- For either of them the equivalence says when the answer is a quorum of its valset.
  have own := answer_isQuorum_iff h (successive_faithful .standard target confirm)
    (successive_distinct target confirm.signer other) (n := 0) hfirst
  have cached := answer_isQuorum_iff h (successive_faithful .standard target confirm)
    (successive_distinct target confirm.signer other) (n := 1) hsecond
  refine ⟨target, confirm, other, h, ⟨hfirst, ?_⟩, hsecond, fun hquorum => ?_⟩
  · -- The first call was not answered by the cache, so the valset is its own.
    obtain ⟨m, -, hm, hpolled, -⟩ := own.1
    have polled : ∀ records, (0, ⟨.recall target, some records⟩) ∉ h.course := by
      simp [h, successiveCourse]
    rw [hpolled polled] at hm
    exact hm
  · -- The signer is no member of the second valset.
    have hordered : [confirm.signer].Sublist [other] := (cached.2.mp hquorum).1
    exact hother (Eq.symm (by simpa using hordered))

/-- **An answer need not be a quorum of the valset that was asked about.** The second of the two
calls is given the confirm of the first one's member, who is no member of its own valset. -/
theorem answer_not_isQuorum_of_valset :
    ¬ ∀ (config : StoreConfig) (calls : Nat → QuorumCall)
      (h : Interleaving fun n => (calls n).routine config), CacheFaithful h.course →
      (∀ n, (calls n).valset.addresses.Nodup) → ∀ n confirms,
      Follows ((calls n).routine config) (ofCall n h.course) (.ok confirms) →
      IsQuorum (calls n).target (calls n).valset confirms := by
  intro claim
  obtain ⟨target, -, confirm, -, -, -, hkind, hcheck, hverify⟩ := exists_confirm
  obtain ⟨other, hother⟩ := exists_ne_address confirm.signer
  have hsecond : Follows (queryQuorum .standard target (soleValset other) 1000)
      (ofCall 1 (successiveCourse .standard target confirm)) (.ok [confirm]) :=
    queryQuorum_follows_recall hkind other 1000
  have hquorum := claim .standard (successiveCalls target confirm.signer other)
    ⟨successiveCourse .standard target confirm, successive_begins hkind hcheck hverify other⟩
    (successive_faithful _ _ _) (successive_distinct _ _ _) 1 [confirm] hsecond
  have hordered : [confirm.signer].Sublist [other] := hquorum.ordered
  exact hother (Eq.symm (by simpa using hordered))

end Countersign.Store
