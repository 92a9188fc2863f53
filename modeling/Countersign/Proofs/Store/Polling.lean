import Countersign.Proofs.Routine.Conforming
import Countersign.Proofs.Store.Collecting

/-!
# What a poll gives and what it remembers

Polling ends with confirms that reach the threshold or with an error, and the only thing that is
ever remembered is such confirms, at the moment they are reached (`Store.conforms_poll`). Both
hold whatever the replicas answer, however often they are asked, and wherever a poll is broken
off.

A call of `Store.queryQuorum` has two ways to an answer (`Store.queryQuorum_follows`): a quorum that
it reached itself, or records that the cache gave back. These are read as confirms and not looked at
again.
-/

namespace Countersign.Store

open Routine

variable {config : StoreConfig} {target : QuorumTarget} {valset : Valset} {deadline : Nat}

/-- Confirms that a poll may end with: all that are collected from some candidates, if their power
reaches the threshold. Where the candidates came from is left open. -/
def Reached (target : QuorumTarget) (valset : Valset) (confirms : List Confirm) : Prop :=
  ∃ candidates, valset.threshold ≤ collectedPower (collect target valset.members candidates) ∧
    confirms = (collect target valset.members candidates).map Prod.snd

/-- What a poll may end with is a quorum. -/
theorem Reached.isQuorum {confirms : List Confirm} (h : Reached target valset confirms)
    (distinct : valset.addresses.Nodup) : IsQuorum target valset confirms := by
  obtain ⟨candidates, hpower, rfl⟩ := h
  exact isQuorum_of_threshold_le distinct hpower

/-- **What a call for a quorum may ask.** Records are read for the members of its valset and for no
others, and nothing is written to a replica. -/
inductive QuorumRequest (config : StoreConfig) (target : QuorumTarget) (valset : Valset) :
    Request → Prop where
  | recall : QuorumRequest config target valset (.recall target)
  | now : QuorumRequest config target valset .now
  | isCancelled : QuorumRequest config target valset .isCancelled
  | candidates : QuorumRequest config target valset
      (.getAll (valset.members.map fun m => confirmKey target.kind target.nonce m.address)
        config.requestTimeout)
  /-- What is remembered has the power of a quorum. -/
  | remember {confirms : List Confirm} (reached : Reached target valset confirms) :
      QuorumRequest config target valset
        (.remember target (confirms.map fun c => Bytes.ofText c.encode))
  | pause (ms : Nat) : QuorumRequest config target valset (.pause ms)

/-- A result that has the power of a quorum, if it is one of success. Errors are not restricted. -/
def GivesReached (target : QuorumTarget) (valset : Valset)
    (result : Except StoreError (List Confirm)) : Prop :=
  ∀ confirms, result = .ok confirms → Reached target valset confirms

theorem givesReached_error {e : StoreError} : GivesReached target valset (.error e) := by
  rintro confirms ⟨⟩

/-- **How polling ends**: with confirms that reach the threshold, because the task is cancelled, or
because the time is over and the confirms that were collected last do not reach it. The power in the
error is that of these confirms. -/
inductive PollEnds (target : QuorumTarget) (valset : Valset) :
    Except StoreError (List Confirm) → Prop where
  | reached {confirms : List Confirm} (reached : Reached target valset confirms) :
      PollEnds target valset (.ok confirms)
  | cancelled : PollEnds target valset (.error .cancelled)
  | late (candidates : List (List Bytes))
      (short : collectedPower (collect target valset.members candidates) < valset.threshold) :
      PollEnds target valset (.error (.quorumTimeout target.nonce
        (collectedPower (collect target valset.members candidates)) valset.threshold))

/-- **Polling ends in one of these ways** and remembers only what reaches the threshold. The
induction is on the polls that are left; what was known of the candidates before does not matter. -/
theorem conforms_poll_ends (started polls : Nat) (known : Collection target valset.members) :
    Conforms (QuorumRequest config target valset) (PollEnds target valset)
      (poll config target valset deadline started polls known) := by
  induction polls generalizing known with
  | zero => exact .cancelled
  | succ polls ih =>
    rw [poll]
    refine conforms_perform_bind.mpr ⟨.isCancelled, fun cancelled => ?_⟩
    split
    · exact .cancelled
    rw [fetchCandidates, bind_bind]
    refine conforms_perform_bind.mpr ⟨.candidates, fun answers => ?_⟩
    rw [pure_eq_done, done_bind]
    dsimp only
    rw [Collection.confirms_renew]
    split
    · next hpower =>
      -- The threshold is reached: the same confirms are remembered and given.
      have hreached : Reached target valset _ := ⟨answers.map _, hpower, rfl⟩
      exact conforms_perform_bind.mpr ⟨.remember hreached, fun _ => .reached hreached⟩
    · next hpower =>
      -- It is not, so there is another poll, unless the deadline has come.
      refine conforms_perform_bind.mpr ⟨.now, fun now => ?_⟩
      split
      · exact .late _ (UInt64.not_le.mp hpower)
      refine conforms_perform_bind.mpr ⟨.pause _, fun wait => ?_⟩
      cases wait with
      | cancelled => exact .cancelled
      | elapsed => exact ih _

/-- Polling gives and remembers only what reaches the threshold, which is the part of the above that
the cache rests on. -/
theorem conforms_poll (started polls : Nat) (known : Collection target valset.members) :
    Conforms (QuorumRequest config target valset) (GivesReached target valset)
      (poll config target valset deadline started polls known) := by
  refine (conforms_poll_ends started polls known).mono (fun _ h => h) fun result hends => ?_
  cases hends with
  | reached reached =>
    rintro confirms ⟨⟩
    exact reached
  | cancelled => exact givesReached_error
  | late candidates short => exact givesReached_error

/-- The same of a whole call, with what it asks in front of the polls. -/
theorem conforms_queryQuorum :
    Conforms (QuorumRequest config target valset) (fun _ => True)
      (queryQuorum config target valset deadline) := by
  rw [queryQuorum]
  split
  · trivial
  refine conforms_perform_bind.mpr ⟨.recall, fun recalled => ?_⟩
  cases recalled with
  | some records => trivial
  | none =>
    refine conforms_perform_bind.mpr ⟨.now, fun started => ?_⟩
    exact (conforms_poll _ _ _).mono (fun _ h => h) fun _ _ => trivial

/-- A call remembers quorums only, those of its own valset for its own target. So what is in a cache
was reached for some valset. -/
theorem queryQuorum_asks_remember (distinct : valset.addresses.Nodup) {t : List Exchange}
    {target' : QuorumTarget} {records : List Bytes}
    (h : Asks (queryQuorum config target valset deadline) t (.remember target' records)) :
    target' = target ∧ ∃ confirms, IsQuorum target valset confirms ∧
      records = confirms.map fun c => Bytes.ofText c.encode := by
  rcases conforms_queryQuorum.asks h with _ | _ | _ | _ | hreached | _
  exact ⟨rfl, _, hreached.isQuorum distinct, rfl⟩

/-- **A call's answer** was given back by the cache, or is a quorum that the call reached. In the
first case nothing else is exchanged. -/
theorem queryQuorum_follows (distinct : valset.addresses.Nodup) {t : List Exchange}
    {confirms : List Confirm}
    (h : Follows (queryQuorum config target valset deadline) t (.ok confirms)) :
    (∃ records, t = [⟨.recall target, some records⟩] ∧
      decodeQuorum target.kind records = .ok confirms) ∨
    (∃ rest, t = ⟨.recall target, none⟩ :: rest ∧ IsQuorum target valset confirms) := by
  rw [queryQuorum] at h
  split at h
  · obtain ⟨-, ⟨⟩⟩ := follows_done_iff.mp h
  obtain ⟨recalled, rest, rfl, hrest⟩ := follows_perform_bind_iff.mp h
  cases recalled with
  | some records =>
    -- The cache answers, and the call is over.
    obtain ⟨rfl, hdecode⟩ := follows_done_iff.mp hrest
    exact Or.inl ⟨records, rfl, hdecode.symm⟩
  | none =>
    obtain ⟨started, polled, rfl, hpoll⟩ := follows_perform_bind_iff.mp hrest
    have hreached := (conforms_poll _ _ _).follows hpoll confirms rfl
    exact Or.inr ⟨_, rfl, hreached.isQuorum distinct⟩

/-- Candidates that were all fetched, one answer for each member. -/
theorem fetchCandidates_follows (candidates : List (List Bytes)) :
    Follows (fetchCandidates config target valset)
      [⟨.getAll (valset.members.map fun m => confirmKey target.kind target.nonce m.address)
        config.requestTimeout, candidates.map .ok⟩] candidates := by
  refine .perform_bind ?_
  refine follows_done_iff.mpr ⟨rfl, ?_⟩
  rw [List.map_map]
  exact (List.map_id candidates).symm

/-- **A call whose first poll shows a quorum** ends there, and remembers it. Most witnesses are
calls of this kind. -/
theorem queryQuorum_follows_first_poll (started : Nat) {candidates : List (List Bytes)}
    {collected : List (UInt64 × Confirm)} (hthreshold : valset.threshold ≠ 0)
    (hcollect : collect target valset.members candidates = collected)
    (hpower : valset.threshold ≤ collectedPower collected) :
    Follows (queryQuorum config target valset deadline)
      [⟨.recall target, none⟩, ⟨.now, started⟩, ⟨.isCancelled, false⟩,
        ⟨.getAll (valset.members.map fun m => confirmKey target.kind target.nonce m.address)
          config.requestTimeout, candidates.map .ok⟩,
        ⟨.remember target ((collected.map Prod.snd).map fun c => Bytes.ofText c.encode), ()⟩]
      (.ok (collected.map Prod.snd)) := by
  rw [queryQuorum, if_neg hthreshold]
  refine .perform_bind ?_
  refine .perform_bind ?_
  -- Nothing was remembered, so the call polls, and the first poll is the last one.
  rw [pollBound, poll]
  refine .perform_bind ?_
  rw [if_neg Bool.false_ne_true]
  refine (fetchCandidates_follows candidates).bind ?_
  dsimp only
  rw [Collection.confirms_renew, hcollect, if_pos hpower]
  exact .perform_bind (.done _)

/-- A remembered quorum comes back as it was. Confirms of another kind would not, but none are
remembered. -/
theorem decodeQuorum_encode {kind : AttestationKind} {confirms : List Confirm}
    (h : ∀ c ∈ confirms, c.kind = kind) :
    decodeQuorum kind (confirms.map fun c => Bytes.ofText c.encode) = .ok confirms := by
  rw [decodeQuorum, Confirm.mapM_decode?_encode h]

end Countersign.Store
