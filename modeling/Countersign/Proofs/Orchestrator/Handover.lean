import Countersign.Proofs.Orchestrator.Backfilling

/-!
# From the backfill to the listener

At the start two workers share the nonces of the source: the backfill sends what there is, down to
the earliest nonce that is live, and the listener what is made from its first stream on. This
module says which nonces they miss.

Each worker reads the source once, and the two readings are not ordered. The backfill covers all
nonces up to the latest one **it** read; the listener those made since **its** stream was opened.
What was made in between, with the backfill's reading first, is neither sent nor pending
(`Orchestrator.HandedOver.covers_iff`). So nothing is lost exactly if whatever there was when the
stream was opened was there already when the backfill read the latest nonce
(`Orchestrator.handedOver_iff`). If the first attempt to subscribe fails, there is time enough for
the opposite (`Orchestrator.handedOver_not_covered`).
-/

namespace Countersign.Orchestrator

open Routine

variable {setup : OrchestratorSetup} {queue : QueueId}

/-! ### The moment -/

/-- **A moment at which both workers are through with their beginnings**: the backfill sent
everything between the bounds that it read, and the listener receives on its only stream so far. The
history is cut where the stream was opened and where the latest nonce was read, and the two cuts are
in no order. -/
structure HandedOver (setup : OrchestratorSetup) (queue : QueueId) (history : List FeedEvent) where
  -- The listener's side: where its stream was opened, and where it stands.
  stream : StreamId
  before : List FeedEvent
  since : List FeedEvent
  subscribed :
    history = before ++ .exchange .listener ⟨.source .subscribe, .ok stream⟩ :: since
  only : subscriptions (exchangesOf .listener history) = [stream]
  tick : Nat
  lastSeen : Option UInt64
  /-- What the listener waits for. -/
  awaited : Request
  receiving : Waits (listen setup queue) .start (exchangesOf .listener history)
    ⟨.receiving stream tick, lastSeen⟩ awaited
  -- The backfill's side: where it read the latest nonce, and what it sent.
  earliest : UInt64
  latest : UInt64
  early : List FeedEvent
  late : List FeedEvent
  read : history = early ++ .exchange .backfill ⟨.source .latestNonce, .ok latest⟩ :: late
  sending : List Exchange
  bounded : exchangesOf .backfill late = ⟨.source .earliestNonce, .ok earliest⟩ :: sending
  backfilled : Follows (backfill setup queue) (exchangesOf .backfill history) (.ok ())
  /-- Nothing that the backfill sent was turned away. -/
  pushed : ∀ nonce answer, ⟨.send queue nonce, answer⟩ ∈ sending → answer = .sent

namespace HandedOver

variable {history : List FeedEvent} {feed : Feed}

/-- A nonce that is not lost: a worker sent it, or the listener's stream still has to bring it. -/
def Covers (moment : HandedOver setup queue history) (feed : Feed) (nonce : UInt64) : Prop :=
  (∃ reader, nonce ∈ sentTo queue (exchangesOf reader history)) ∨
    ∃ left, feed.pending moment.stream = some left ∧ nonce ∈ left

/-- A nonce that the backfill has to send, if it was there. Nonces below are no longer live, and
nobody has to send them. -/
def InRange (moment : HandedOver setup queue history) (nonce : UInt64) : Prop :=
  moment.earliest ≤ nonce ∧ bootstrapNonce ≤ nonce

/-- **What the backfill sent**, as far as it goes down: everything up to the latest nonce that it
read. -/
theorem mem_sentTo_backfill (moment : HandedOver setup queue history) {nonce : UInt64}
    (h : moment.InRange nonce) :
    nonce ∈ sentTo queue (exchangesOf .backfill history) ↔ nonce ≤ moment.latest := by
  have hcourse := congrArg (exchangesOf .backfill) moment.read
  rw [exchangesOf_append, exchangesOf_exchange_self, moment.bounded] at hcourse
  have hbackfilled := moment.backfilled
  rw [hcourse] at hbackfilled ⊢
  obtain ⟨hquiet, hsends⟩ := follows_backfill hbackfilled
  -- It sends nothing before it has read its bounds.
  rw [sentTo_append, Quiet.sentTo_eq_nil hquiet, List.nil_append, sentTo_cons, sentTo_cons]
  change nonce ∈ sentTo queue moment.sending ↔ nonce ≤ moment.latest
  obtain ⟨hlow, hboot⟩ := h
  rw [mem_sentTo_of_sendDown hsends (Nat.sub_le _ _) moment.pushed, rangeSize]
  rw [UInt64.le_iff_toNat_le] at hlow hboot ⊢
  split <;> omega

/-- What the listener was brought, in order: what it sent, and what it is about to send. The rest is
still in its stream. -/
theorem created_since (moment : HandedOver setup queue history)
    (h : Feed.empty.run history = some feed) :
    ∃ left, feed.pending moment.stream = some left ∧
      created moment.since = sentTo queue (exchangesOf .listener history) ++
        inHand queue moment.awaited ++ left := by
  rw [moment.subscribed] at h
  obtain ⟨hbefore, left, hleft, hsince⟩ := Feed.created_eq_heardOn h
  have hheard := heardOn_of_waits moment.receiving moment.only
  have hsplit := congrArg (exchangesOf .listener) moment.subscribed
  rw [exchangesOf_append, exchangesOf_exchange_self] at hsplit
  refine ⟨left, hleft, ?_⟩
  -- The stream brought nothing before it was opened, so all that it brought it brought since.
  rw [hsince, ← hheard, hsplit, heardOn_append, hbefore, heardOn_cons]
  rfl

/-- What was made was made before the stream was opened, or since. -/
theorem created_eq_append (moment : HandedOver setup queue history) :
    created history = created moment.before ++ created moment.since := by
  have hsplit := congrArg created moment.subscribed
  rwa [created_append, created_exchange] at hsplit

/-- Nonces increase from those that were there when the stream was opened to those since, so no
nonce is of both kinds. -/
theorem pairwise (moment : HandedOver setup queue history)
    (h : Feed.empty.run history = some feed) :
    (created moment.since).Nodup ∧
      ∀ m ∈ created moment.before, ∀ n ∈ created moment.since, m < n := by
  have hpairwise := Feed.pairwise h
  rw [moment.created_eq_append] at hpairwise
  obtain ⟨-, hsince, hbefore⟩ := List.pairwise_append.mp hpairwise
  exact ⟨hsince.imp UInt64.ne_of_lt, hbefore⟩

/-- **Which nonces are not lost**: those up to the latest one that the backfill read, and those
that were made since the stream was opened. One that is just about to be sent is neither sent nor
pending. -/
theorem covers_iff (moment : HandedOver setup queue history)
    (h : Feed.empty.run history = some feed) {nonce : UInt64} (hrange : moment.InRange nonce) :
    moment.Covers feed nonce ↔ nonce ≤ moment.latest ∨
      nonce ∈ created moment.since ∧ nonce ∉ inHand queue moment.awaited := by
  obtain ⟨left, hleft, hsince⟩ := moment.created_since h
  have hnodup := (moment.pairwise h).1
  rw [hsince] at hnodup
  have hbackfill := moment.mem_sentTo_backfill hrange
  constructor
  · rintro (⟨reader, hsent⟩ | ⟨left', hleft', hpending⟩)
    · cases reader with
      | backfill => exact Or.inl (hbackfill.mp hsent)
      | listener =>
        -- What it sent it was brought, and a nonce is not brought twice.
        refine Or.inr ⟨?_, fun hhand => ?_⟩
        · rw [hsince]
          exact List.mem_append_left _ (List.mem_append_left _ hsent)
        · exact (List.nodup_append.mp (List.nodup_append.mp hnodup).1).2.2 _ hsent _ hhand rfl
    · -- What the stream still has to bring comes behind what it brought.
      obtain rfl := Option.some.inj (hleft.symm.trans hleft')
      refine Or.inr ⟨?_, fun hhand => ?_⟩
      · rw [hsince]
        exact List.mem_append_right _ hpending
      · exact (List.nodup_append.mp hnodup).2.2 _ (List.mem_append_right _ hhand) _ hpending rfl
  · rintro (hle | ⟨hmade, hhand⟩)
    · exact Or.inl ⟨.backfill, hbackfill.mpr hle⟩
    · rw [hsince, List.mem_append, List.mem_append] at hmade
      rcases hmade with (hsent | hhand') | hpending
      · exact Or.inl ⟨.listener, hsent⟩
      · exact absurd hhand' hhand
      · exact Or.inr ⟨left, hleft, hpending⟩

/-- **Up to the latest nonce that the backfill read** means made before it read it. This turns a
bound into a matter of order, in which the condition of `handedOver_iff` is told. -/
theorem le_latest_iff (moment : HandedOver setup queue history)
    (h : Feed.empty.run history = some feed) {nonce : UInt64} (hmade : nonce ∈ created history)
    (hrange : moment.InRange nonce) :
    nonce ≤ moment.latest ↔ nonce ∈ created moment.early := by
  have hpairwise := Feed.pairwise h
  -- The nonce that was read is the last one that was made before.
  have hlatest : moment.latest = (created moment.early).getLastD 0 := by
    have hread := h
    rw [moment.read] at hread
    exact Feed.latest_eq hread
  have hsplit := congrArg created moment.read
  rw [created_append, created_exchange] at hsplit
  rw [hsplit] at hpairwise hmade
  obtain ⟨hearly, -, hlate⟩ := List.pairwise_append.mp hpairwise
  rw [hlatest]
  rcases List.eq_nil_or_concat (created moment.early) with hnil | ⟨init, last, hconcat⟩
  · -- There was nothing yet, and the nonce is not zero.
    rw [hnil]
    have hboot := hrange.2
    rw [UInt64.le_iff_toNat_le] at hboot
    constructor
    · intro hzero
      rw [UInt64.le_iff_toNat_le] at hzero
      exact absurd (Nat.le_trans hboot hzero) (by decide)
    · rintro ⟨⟩
  · -- The last one made before is the latest, and nonces increase.
    rw [List.concat_eq_append] at hconcat
    rw [hconcat] at hearly hlate hmade ⊢
    rw [List.getLastD_concat]
    constructor
    · intro hle
      refine (List.mem_append.mp hmade).resolve_right fun hlater => ?_
      exact absurd (hlate last (by simp) nonce hlater) (UInt64.not_lt.mpr hle)
    · intro hmem
      rcases List.mem_append.mp hmem with hinit | hlast
      · exact UInt64.le_of_lt ((List.pairwise_append.mp hearly).2.2 nonce hinit last (by simp))
      · rw [List.mem_singleton.mp hlast]
        exact UInt64.le_refl last

end HandedOver

/-! ### A start with a failure -/

/-- The settings where nothing else is said, for some address. -/
def standardSetup : OrchestratorSetup := ⟨⟨0⟩, .standard, .standard, .standard⟩

/-- What the backfill exchanges if there is one attestation. -/
def soleBackfill (queue : QueueId) : List Exchange :=
  [⟨.isCancelled, false⟩, ⟨.source .latestNonce, .ok 1⟩, ⟨.source .earliestNonce, .ok 1⟩,
    ⟨.send queue 1, .sent⟩]

/-- What the listener exchanges until its second attempt to subscribe. -/
def failedCourse : List Exchange :=
  [⟨.isCancelled, false⟩, ⟨.source .subscribe, .error (.transport "")⟩]

/-- The pause before it, and another look at the token. This is the time in which a nonce may be
made that nobody sends. -/
def retriedCourse : List Exchange :=
  [⟨.pause RetryPolicy.standard.delay, .elapsed⟩, ⟨.isCancelled, false⟩]

/-- What it exchanges then, until it receives. -/
def subscribedCourse (latest : UInt64) : List Exchange :=
  [⟨.isCancelled, false⟩, ⟨.source .latestNonce, .ok latest⟩, ⟨.now, (0 : Nat)⟩]

theorem follows_soleBackfill :
    Follows (backfill standardSetup queue) (soleBackfill queue) (.ok ()) := by
  have hread : Follows readBounds
      [⟨.source .latestNonce, .ok 1⟩, ⟨.source .earliestNonce, .ok 1⟩] (.ok (1, 1)) := by
    refine .perform_bind (r := .source .latestNonce) ?_
    refine .perform_bind (r := .source .earliestNonce) ?_
    exact .done _
  have hbounds : Follows (retry standardSetup.retry (fun _ => true) fun _ => readBounds)
      [⟨.isCancelled, false⟩, ⟨.source .latestNonce, .ok 1⟩, ⟨.source .earliestNonce, .ok 1⟩]
      (.ok (1, 1)) :=
    follows_retryFrom_of_ok _ hread
  rw [backfill]
  refine follows_bind_iff.mpr ⟨_, _, [⟨.send queue 1, .sent⟩], rfl, hbounds, ?_⟩
  exact .perform_bind (.done _)

/-- A query that succeeds is waited for no longer. -/
theorem follows_persist {α : Type} {query : Routine (Except SourceError α)} {t : List Exchange}
    {a : α} (h : Follows (retry setup.retry (fun _ => true) fun _ => query) t (.ok a)) :
    Follows (persist setup query) t (.ok (some a)) := by
  rw [persist, ← List.append_nil t]
  exact h.bind (.done _)

/-- A listener takes this course from its start, and receives from there on. -/
theorem loops_subscribedCourse (latest : UInt64) :
    Loops (listen standardSetup queue) .start
      (failedCourse ++ retriedCourse ++ ⟨.source .subscribe, .ok 0⟩ :: subscribedCourse latest)
      ⟨.receiving 0 30000, some latest⟩ := by
  have hfailed : Follows SourceQuery.subscribe.perform
      [⟨.source .subscribe, .error (.transport "")⟩] (.error (.transport "")) :=
    .ask _ (.done _)
  have hopened : Follows SourceQuery.subscribe.perform
      [⟨.source .subscribe, .ok 0⟩] (.ok 0) :=
    .ask _ (.done _)
  have hlatest : Follows SourceQuery.latestNonce.perform
      [⟨.source .latestNonce, .ok latest⟩] (.ok latest) :=
    .ask _ (.done _)
  -- The second attempt to subscribe succeeds, the first one to read the latest nonce does.
  have hsubscribe : Follows (persist standardSetup SourceQuery.subscribe.perform)
      (failedCourse ++ retriedCourse ++ [⟨.source .subscribe, .ok 0⟩]) (.ok (some 0)) := by
    refine follows_persist ?_
    exact follows_retryFrom_of_error (fun _ => SourceQuery.subscribe.perform) hfailed rfl
      (follows_retryFrom_of_ok _ hopened)
  have hread : Follows (persist standardSetup SourceQuery.latestNonce.perform)
      [⟨.isCancelled, false⟩, ⟨.source .latestNonce, .ok latest⟩] (.ok (some latest)) :=
    follows_persist (follows_retryFrom_of_ok _ hlatest)
  -- Connecting is both of them, and then the look at the clock.
  have hconnect : Follows (connect standardSetup none)
      (failedCourse ++ retriedCourse ++ ⟨.source .subscribe, .ok 0⟩ :: subscribedCourse latest)
      (.again ⟨.receiving 0 30000, some latest⟩) := by
    rw [connect]
    refine follows_bind_iff.mpr ⟨_, _, subscribedCourse latest, rfl, hsubscribe, ?_⟩
    refine follows_bind_iff.mpr ⟨_, _, [⟨.now, (0 : Nat)⟩], rfl, hread, ?_⟩
    exact .perform_bind (.done _)
  exact .single hconnect

/-- A start with one attestation, whose nonce the backfill sends. The listener's first attempt to
subscribe fails, and some attestations are made before the second one. -/
def delayedStart (meanwhile : List UInt64) : List FeedEvent :=
  -- The backfill is through before the listener begins.
  .created 1 :: ((soleBackfill 0).map (.exchange .backfill) ++
    (failedCourse.map (.exchange .listener) ++ (meanwhile.map .created ++
      (retriedCourse.map (.exchange .listener) ++
        .exchange .listener ⟨.source .subscribe, .ok 0⟩ ::
          (subscribedCourse (meanwhile.getLastD 1)).map (.exchange .listener)))))

theorem listener_delayedStart (meanwhile : List UInt64) :
    exchangesOf .listener (delayedStart meanwhile) = failedCourse ++ retriedCourse ++
      ⟨.source .subscribe, .ok 0⟩ :: subscribedCourse (meanwhile.getLastD 1) := by
  simp [delayedStart]

theorem backfill_delayedStart (meanwhile : List UInt64) :
    exchangesOf .backfill (delayedStart meanwhile) = soleBackfill 0 := by
  simp [delayedStart, exchangesOf_exchange_of_ne]

/-- **The moment at which the listener of a delayed start has begun to receive.** -/
def delayedMoment (meanwhile : List UInt64) :
    HandedOver standardSetup 0 (delayedStart meanwhile) where
  stream := 0
  before := .created 1 :: ((soleBackfill 0).map (.exchange .backfill) ++
    (failedCourse.map (.exchange .listener) ++ (meanwhile.map .created ++
      retriedCourse.map (.exchange .listener))))
  since := (subscribedCourse (meanwhile.getLastD 1)).map (.exchange .listener)
  subscribed := by simp [delayedStart]
  only := by
    rw [listener_delayedStart]
    rfl
  tick := 30000
  lastSeen := some (meanwhile.getLastD 1)
  awaited := .nextSignal 0 30000
  receiving := by
    rw [listener_delayedStart]
    exact (loops_subscribedCourse _).waits .here
  earliest := 1
  latest := 1
  early := [.created 1, .exchange .backfill ⟨.isCancelled, false⟩]
  late := [.exchange .backfill ⟨.source .earliestNonce, .ok 1⟩,
      .exchange .backfill ⟨.send 0 1, .sent⟩] ++
    (failedCourse.map (.exchange .listener) ++ (meanwhile.map .created ++
      (retriedCourse.map (.exchange .listener) ++
        .exchange .listener ⟨.source .subscribe, .ok 0⟩ ::
          (subscribedCourse (meanwhile.getLastD 1)).map (.exchange .listener))))
  read := rfl
  sending := [⟨.send 0 1, .sent⟩]
  bounded := by simp [exchangesOf_exchange_of_ne]
  backfilled := by
    rw [backfill_delayedStart]
    exact follows_soleBackfill
  pushed := by
    rintro nonce answer hmem
    cases List.mem_singleton.mp hmem
    rfl

/-- A source may take part in it if nothing is made meanwhile, -/
theorem exists_run_delayedStart_nil : ∃ feed, Feed.empty.run (delayedStart []) = some feed :=
  ⟨_, rfl⟩

/-- and if one attestation is. -/
theorem exists_run_delayedStart_two : ∃ feed, Feed.empty.run (delayedStart [2]) = some feed :=
  ⟨_, rfl⟩

/-! ### What is lost -/

/-- **When nothing is lost.** Every nonce that was made, as far down as the backfill goes, was
sent or is pending exactly if all of those that were there when the stream was opened, or are just
about to be sent, were there when the backfill read the latest nonce. -/
theorem handedOver_iff {history : List FeedEvent} {feed : Feed}
    (h : Feed.empty.run history = some feed) (moment : HandedOver setup queue history) :
    (∀ nonce ∈ created history, moment.InRange nonce → moment.Covers feed nonce) ↔
      ∀ nonce ∈ created moment.before ++ inHand queue moment.awaited, moment.InRange nonce →
        nonce ∈ created moment.early := by
  obtain ⟨left, -, hsince⟩ := moment.created_since h
  -- A nonce that is about to be sent was brought by the stream, so it was made since.
  have hmade : ∀ nonce ∈ created moment.before ++ inHand queue moment.awaited,
      nonce ∈ created history := by
    intro nonce hmem
    rw [moment.created_eq_append]
    rcases List.mem_append.mp hmem with hbefore | hhand
    · exact List.mem_append_left _ hbefore
    · rw [hsince]
      exact List.mem_append_right _ (List.mem_append_left _ (List.mem_append_right _ hhand))
  constructor
  · intro hcovers nonce hmem hrange
    refine (moment.le_latest_iff h (hmade nonce hmem) hrange).mp ?_
    rcases (moment.covers_iff h hrange).mp (hcovers nonce (hmade nonce hmem) hrange) with
      hle | ⟨hlater, hhand⟩
    · exact hle
    · -- It was there when the stream was opened, so it was not made since.
      have hbefore := (List.mem_append.mp hmem).resolve_right hhand
      exact absurd ((moment.pairwise h).2 nonce hbefore nonce hlater) (UInt64.lt_irrefl nonce)
  · intro hearly nonce hcreated hrange
    refine (moment.covers_iff h hrange).mpr ?_
    -- The backfill sent what was there early, and the listener has what was made since.
    by_cases hmem : nonce ∈ created moment.before ++ inHand queue moment.awaited
    · exact Or.inl ((moment.le_latest_iff h hcreated hrange).mpr (hearly nonce hmem hrange))
    · rw [moment.created_eq_append] at hcreated
      rw [List.mem_append, not_or] at hmem
      exact Or.inr ⟨(List.mem_append.mp hcreated).resolve_left hmem.1, hmem.2⟩

/-- **If nothing is made meanwhile**, a delayed start loses nothing. -/
theorem handedOver_iff_of_delayedStart :
    ∃ feed, Feed.empty.run (delayedStart []) = some feed ∧
      ∀ nonce ∈ created (delayedStart []), (delayedMoment []).InRange nonce →
        (delayedMoment []).Covers feed nonce := by
  obtain ⟨feed, hrun⟩ := exists_run_delayedStart_nil
  refine ⟨feed, hrun, (handedOver_iff hrun (delayedMoment [])).mpr ?_⟩
  intro nonce hmem hrange
  exact hmem

/-- **A nonce may fall between the two workers.** The backfill read the latest nonce before an
attestation was made, and the listener subscribed after. -/
theorem handedOver_not_covered :
    ¬ ∀ (setup : OrchestratorSetup) (queue : QueueId) (history : List FeedEvent) (feed : Feed),
      Feed.empty.run history = some feed → ∀ moment : HandedOver setup queue history,
      ∀ nonce ∈ created history, moment.InRange nonce → moment.Covers feed nonce := by
  intro claim
  -- The nonce 2 is made between the listener's two attempts to subscribe.
  obtain ⟨feed, hrun⟩ := exists_run_delayedStart_two
  have hrange : (delayedMoment [2]).InRange 2 := ⟨by decide, by decide⟩
  have hcovers := claim _ _ _ feed hrun (delayedMoment [2]) 2 (by simp [delayedStart]) hrange
  rcases ((delayedMoment [2]).covers_iff hrun hrange).mp hcovers with hle | ⟨hmade, -⟩
  · exact absurd hle (by decide)
  · cases hmade

end Countersign.Orchestrator
