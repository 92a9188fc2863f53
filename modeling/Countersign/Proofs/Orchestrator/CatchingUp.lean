import Countersign.Proofs.Orchestrator.Backfilling
import Countersign.Proofs.Orchestrator.Confirming
import Countersign.Proofs.Orchestrator.Requeueing

/-!
# The backfill and the processor catch up

At the start an orchestrator has to sign whatever is still live. The backfill sends the nonces, and
the processor signs what it takes. In between there is a queue, which may be short, and a processor
that may be slow; others send to the queue, too, and write to the store. This module says what the
two come to (`Orchestrator.backfill_catches_up`):

* the backfill sends the live nonces, each once and downwards, and no others
  (`Orchestrator.sentTo_of_backfill`);
* what it has sent is still in the queue, in the processor's hand, or the processor was through with
  it (`Orchestrator.Underway.exists_whole`). So once the queue is empty and the processor waits,
  there is a confirm for each of them in the store, except for the first nonce.

All of this is read off one history (`CatchUpEvent`), of which backfill, queues and store see their
parts.
-/

namespace Countersign

open Routine
open Simulation (Queue)

/-! ### One history -/

/-- **What happens meanwhile**: the backfill has an exchange, something else happens to the queues,
or somebody writes to a replica. The processor is among those who deal with the queues, so its
exchanges come as `traffic` and are seen by queues and store alike. -/
inductive CatchUpEvent where
  | backfill (e : Exchange)
  | traffic (event : TrafficEvent)
  | write (w : ReplicaWrite)

namespace CatchUpEvent

/-- What the backfill sees of an event, which is its own exchange and nothing else. -/
def backfill? : CatchUpEvent → Option Exchange
  | .backfill e => some e
  | .traffic _ | .write _ => none

/-- What the queues see of an event. The backfill has no name of its own there: to the queue of
nonces it is the sender with the number `sender`, and only what it sends comes through (`sent?`). -/
def traffic? (nonces : QueueId) (sender : Nat) : CatchUpEvent → Option TrafficEvent
  | .backfill e => (sent? nonces e).map (.puts sender)
  | .traffic event => some event
  | .write _ => none

/-- What the store sees of an event: each write to a replica, and each exchange of the processor.
The backfill never asks the store for anything. -/
def store? : CatchUpEvent → Option StoreEvent
  | .backfill _ => none
  | .traffic event => (event.of? .processor).map .exchange
  | .write w => some (.write w)

/-- The way back from `store?`: an event around the store as a part of all that happens. The witness
below builds its history with it. -/
def ofStore : StoreEvent → CatchUpEvent
  | .write w => .write w
  | .exchange e => .traffic (.exchange .processor e)

/-- The course of the backfill, as `Follows` takes it. -/
def backfilled (history : List CatchUpEvent) : List Exchange :=
  history.filterMap backfill?

/-- What happened to the queues, in order. This is the history that `Underway` and the theory of the
traffic are about. -/
def queued (nonces : QueueId) (sender : Nat) (history : List CatchUpEvent) : List TrafficEvent :=
  history.filterMap (traffic? nonces sender)

/-- What happened around the store, in order. This is what `Reached` and `Undisturbed` are about. -/
def stored (history : List CatchUpEvent) : List StoreEvent :=
  history.filterMap store?

variable {nonces : QueueId} {sender : Nat} {history : List CatchUpEvent}

/-- The processor is the same for queues and store: what the store sees of it are its dealings with
the queues. This joins the two theories, which know nothing of each other. -/
theorem exchanges_stored (nonces : QueueId) (sender : Nat) (history : List CatchUpEvent) :
    StoreEvent.exchanges (stored history) = dealings .processor (queued nonces sender history) := by
  rw [stored, queued, StoreEvent.exchanges, dealings, List.filterMap_filterMap,
    List.filterMap_filterMap]
  refine List.filterMap_congr fun event _ => ?_
  cases event with
  | backfill e =>
    show none = ((sent? nonces e).map _).bind _
    cases sent? nonces e <;> rfl
  | traffic event =>
    show ((event.of? .processor).map _).bind _ = event.of? .processor
    cases event.of? .processor <;> rfl
  | write w => rfl

/-- What the backfill sent was put into the queue, as one `puts` among those of the other
senders. -/
theorem mem_puts_of_sentTo {nonce : UInt64}
    (h : nonce ∈ sentTo nonces (backfilled history)) :
    nonce ∈ puts (queued nonces sender history) := by
  obtain ⟨e, he, hsent⟩ := List.mem_filterMap.mp h
  obtain ⟨event, hevent, hbackfill⟩ := List.mem_filterMap.mp he
  cases event with
  | traffic | write => cases hbackfill
  | backfill e' =>
    obtain rfl := Option.some.inj hbackfill
    refine List.mem_filterMap.mpr ⟨.puts sender nonce, ?_, rfl⟩
    refine List.mem_filterMap.mpr ⟨_, hevent, ?_⟩
    rw [traffic?, hsent]
    rfl

end CatchUpEvent

namespace Orchestrator

open CatchUpEvent (backfilled queued stored)

variable {setup : OrchestratorSetup} {nonces requeue : QueueId}

/-! ### The backfill -/

/-- The nonces that are live, from the earliest one that the source still has up to the latest.
There is none before the first, whatever the source reports as its earliest. -/
def IsLive (earliest latest nonce : UInt64) : Prop :=
  earliest ≤ nonce ∧ bootstrapNonce ≤ nonce ∧ nonce ≤ latest

/-- **The backfill sends what is live**, given the bounds that it read: nothing else, each nonce
once and downwards, and everything unless it is cancelled or the queue is closed. `hread` cuts the
course behind the two reads, so `sending` is what `follows_backfill` describes as sending down from
`latest`. -/
theorem sentTo_of_backfill {result : WorkerResult} {course reading sending : List Exchange}
    {earliest latest : UInt64} (h : Follows (backfill setup nonces) course result)
    (hread : course = reading ++ ⟨.source .latestNonce, .ok latest⟩ ::
      ⟨.source .earliestNonce, .ok earliest⟩ :: sending) :
    (sentTo nonces course).Pairwise (· > ·) ∧
    (∀ nonce ∈ sentTo nonces course, IsLive earliest latest nonce) ∧
    ((∀ nonce answer, ⟨.send nonces nonce, answer⟩ ∈ course → answer = .sent) →
      ∀ nonce, IsLive earliest latest nonce → nonce ∈ sentTo nonces course) := by
  subst hread
  obtain ⟨hquiet, hsends⟩ := follows_backfill h
  have hcount : rangeSize (if earliest ≤ bootstrapNonce then bootstrapNonce else earliest) latest ≤
      latest.toNat + 1 := Nat.sub_le _ _
  -- Reading the bounds sends nothing.
  have hsent : sentTo nonces (reading ++ ⟨.source .latestNonce, .ok latest⟩ ::
      ⟨.source .earliestNonce, .ok earliest⟩ :: sending) = sentTo nonces sending := by
    rw [sentTo_append, Quiet.sentTo_eq_nil hquiet, sentTo_cons, sentTo_cons]
    rfl
  -- `IsLive` in the form in which `follows_backfill` counts: the latest nonce, and how many are
  -- sent down from it.
  have hlive : ∀ nonce : UInt64, IsLive earliest latest nonce ↔ nonce ≤ latest ∧
      latest.toNat < nonce.toNat +
        rangeSize (if earliest ≤ bootstrapNonce then bootstrapNonce else earliest) latest := by
    intro nonce
    simp only [IsLive, rangeSize, UInt64.le_iff_toNat_le]
    split <;> omega
  obtain ⟨hpairwise, hrange⟩ := pairwise_sentTo_of_sendDown hsends hcount
  rw [hsent]
  refine ⟨hpairwise, fun nonce hnonce => (hlive nonce).mpr (hrange nonce hnonce), ?_⟩
  intro hpushed nonce hnonce
  -- The hypothesis is about the whole course, and the sends are its last part.
  have hpushed' : ∀ n answer, ⟨.send nonces n, answer⟩ ∈ sending → answer = .sent :=
    fun n answer hmem => hpushed n answer
      (List.mem_append_right _ (List.mem_cons_of_mem _ (List.mem_cons_of_mem _ hmem)))
  exact (mem_sentTo_of_sendDown hsends hcount hpushed' nonce).mpr ((hlive nonce).mp hnonce)

/-! ### The queue -/

/-- **Where the nonces are that were sent**: in the queue, in hand, or taken in a turn of the
processor that is over. The turns that are over are `whole`; what was begun behind them can have
taken one nonce at most, and that one is in hand. -/
theorem Underway.exists_whole {capacity : QueueId → Nat} {history : List TrafficEvent}
    {s : QueueId → Queue} (h : Underway setup nonces requeue capacity history s) :
    ∃ whole, whole ⊆ dealings .processor history ∧
      Loops (fun _ : Unit => processNext setup nonces requeue) () whole () ∧
      ∀ nonce ∈ puts history, nonce ∈ (s nonces).items ∨ (held history).hand = some nonce ∨
        nonce ∈ takenFrom nonces (motions whole) := by
  obtain ⟨r, hwaits, whole, begun, hcourse, hloops, hasks⟩ := h.processor
  refine ⟨whole, ?_, hloops, fun nonce hnonce => ?_⟩
  · rw [hcourse]
    exact List.subset_append_left _ _
  -- The nonces put are, up to order, those taken and those in the queue. What was taken is cut into
  -- the turns that are over and the one that is not.
  have hmem := h.nonces_perm.subset (List.mem_append_left _ hnonce)
  rw [hcourse, motions_append, takenFrom_append, List.mem_append, List.mem_append] at hmem
  rcases hmem with (htaken | htaken) | hitem
  · exact Or.inr (Or.inr htaken)
  · -- In the turn that is not over, the nonce that was taken is in hand.
    rcases processNext_waits hasks hwaits with hnone | ⟨taken, hsole⟩
    · rw [hnone] at htaken
      cases htaken
    · rw [hsole, takenFrom_cons, Motion.takenFrom?, if_pos rfl] at htaken
      obtain rfl := List.mem_singleton.mp htaken
      refine Or.inr (Or.inl ?_)
      rw [held, hcourse, motions_append, hsole, custody_append]
      rfl
  · exact Or.inl hitem

/-! ### Both together -/

/-- **Surroundings that do their part** up to a moment at which the queues are `s`. Nothing is
assumed about pace: the queue of nonces may have any capacity, and everybody may have taken turns in
any way. -/
structure Favourable (setup : OrchestratorSetup) (nonces requeue : QueueId) (sender : Nat)
    (capacity : QueueId → Nat) (identity : Identity) (attestations : UInt64 → Attestation)
    (wanted : UInt64 → Prop) (overlay : Overlay) (history : List CatchUpEvent)
    (s : QueueId → Queue) : Prop where
  underway : Underway setup nonces requeue capacity (queued nonces sender history) s
  address : identity.address = setup.address
  /-- The source has every attestation that is wanted and answers every call, and the identity is a
  member of the valset before each of them. -/
  served : ∀ e ∈ StoreEvent.exchanges (stored history),
    IsServed setup identity attestations wanted e
  reached : Reached overlay (stored history)
  /-- Nobody else writes the identity's keys. -/
  undisturbed : Undisturbed setup nonces requeue attestations wanted overlay (stored history)

/-- **What was sent and is gone** from the queue and from the processor's hand has a confirm in the
store, unless it is the first nonce. By `Underway.exists_whole` the nonce was taken in a turn that
is over, and such a turn leaves a confirm behind (`holdsVerified_of_taken`). -/
theorem Favourable.holdsVerified {sender : Nat} {capacity : QueueId → Nat} {identity : Identity}
    {attestations : UInt64 → Attestation} {wanted : UInt64 → Prop} {overlay : Overlay}
    {history : List CatchUpEvent} {s : QueueId → Queue}
    (h : Favourable setup nonces requeue sender capacity identity attestations wanted overlay
      history s) {nonce : UInt64} (hsent : nonce ∈ sentTo nonces (backfilled history))
    (hwanted : wanted nonce) (hfirst : nonce ≠ bootstrapNonce) (hqueue : nonce ∉ (s nonces).items)
    (hhand : (held (queued nonces sender history)).hand ≠ some nonce) :
    HoldsVerified (overlay.after (StoreEvent.writes (stored history))) (attestations nonce) nonce
      setup.address := by
  obtain ⟨whole, hwhole, hloops, hplaces⟩ := h.underway.exists_whole
  rw [← CatchUpEvent.exchanges_stored] at hwhole
  rcases hplaces nonce (CatchUpEvent.mem_puts_of_sentTo hsent) with hitem | hheld | htaken
  · exact absurd hitem hqueue
  · exact absurd hheld hhand
  · exact holdsVerified_of_taken h.address h.served h.reached h.undisturbed hwhole hloops htaken
      hwanted hfirst

/-- **The backfill and the processor catch up.** A backfill that read its bounds

* sends live nonces only, each once and downwards;
* sends all of them, unless it is cancelled or the queue is closed. Then every live nonce, except
  for the first one, has a confirm of the identity in the store as soon as it is neither in the
  queue nor in the processor's hand. So all of them have one once the queue is empty and the
  processor waits for more. -/
theorem backfill_catches_up {history : List CatchUpEvent} {result : WorkerResult}
    {reading sending : List Exchange} {earliest latest : UInt64}
    (h : Follows (backfill setup nonces) (backfilled history) result)
    (hread : backfilled history = reading ++ ⟨.source .latestNonce, .ok latest⟩ ::
      ⟨.source .earliestNonce, .ok earliest⟩ :: sending) :
    (sentTo nonces (backfilled history)).Pairwise (· > ·) ∧
    (∀ nonce ∈ sentTo nonces (backfilled history), IsLive earliest latest nonce) ∧
    ((∀ nonce answer, ⟨.send nonces nonce, answer⟩ ∈ backfilled history → answer = .sent) →
      (∀ nonce, IsLive earliest latest nonce → nonce ∈ sentTo nonces (backfilled history)) ∧
      ∀ sender capacity identity attestations overlay s,
        Favourable setup nonces requeue sender capacity identity attestations
          (IsLive earliest latest) overlay history s →
        ∀ nonce, IsLive earliest latest nonce → nonce ≠ bootstrapNonce →
          nonce ∉ (s nonces).items → (held (queued nonces sender history)).hand ≠ some nonce →
          HoldsVerified (overlay.after (StoreEvent.writes (stored history))) (attestations nonce)
            nonce setup.address) := by
  obtain ⟨hpairwise, hlive, hcomplete⟩ := sentTo_of_backfill h hread
  refine ⟨hpairwise, hlive, fun hpushed => ⟨hcomplete hpushed, ?_⟩⟩
  intro sender capacity identity attestations overlay s hfavourable nonce hnonce
  exact hfavourable.holdsVerified (hcomplete hpushed nonce hnonce) hnonce

/-! ### Turns beside the queues -/

/-- **What does not touch the queues** may be left out of what happens to them. The witness uses it
to reduce a whole turn of the processor to its first exchange. -/
theorem run_append_idle {s : QueueId → Queue} {carrier : Carrier} {t : List Exchange}
    (h : ∀ e ∈ t, ∀ s, Traffic.step nonces s (.exchange carrier e) = some s)
    (before after : List TrafficEvent) :
    Traffic.run nonces s (before ++ (t.map (.exchange carrier) ++ after)) =
      Traffic.run nonces s (before ++ after) := by
  have hidle : ∀ s, Traffic.run nonces s (t.map (.exchange carrier) ++ after) =
      Traffic.run nonces s after := by
    induction t with
    | nil => exact fun s => rfl
    | cons e t ih =>
      intro s
      have hstep := h e List.mem_cons_self s
      have hrest := ih (fun e he => h e (List.mem_cons_of_mem _ he)) s
      rw [Traffic.run] at hrest ⊢
      rw [List.map_cons, List.cons_append, List.foldlM_cons, hstep]
      exact hrest
  unfold Traffic.run at hidle ⊢
  rw [List.foldlM_append, List.foldlM_append]
  exact congrArg _ (funext hidle)

/-- A turn of the processor in which the first run succeeds: the nonce is received, the run for it
follows, and its success is noted. -/
def processedTurn (nonces : QueueId) (nonce : UInt64) (run : List Exchange) : List Exchange :=
  ⟨.receive nonces, .nonce nonce⟩ ::
    (⟨.isCancelled, false⟩ :: run ++ [⟨.note (.processed nonce), ()⟩])

theorem follows_processedTurn {nonce : UInt64} {run : List Exchange} {outcome : ProcessOutcome}
    (h : Follows (process setup nonce) run (.ok outcome)) :
    Follows (processNext setup nonces requeue) (processedTurn nonces nonce run) (.again ()) := by
  have hrun : Follows (retry setup.retry OrchestratorError.isRetryable fun _ => process setup nonce)
      (⟨.isCancelled, false⟩ :: run) (.ok outcome) :=
    follows_retryFrom_of_ok _ h
  rw [processNext]
  refine .perform_bind (r := .receive nonces) ?_
  exact hrun.bind (.perform_bind (r := .note (.processed nonce)) (.done _))

/-- **A turn does to the queues** what its first exchange does, if the run has nothing to do with
them. -/
theorem run_processedTurn {s : QueueId → Queue} {nonce : UInt64} {run : List Exchange}
    (h : ∀ e ∈ run, ∀ s, Traffic.step nonces s (.exchange .processor e) = some s)
    (before after : List TrafficEvent) :
    Traffic.run nonces s
        (before ++ ((processedTurn nonces nonce run).map (.exchange .processor) ++ after)) =
      Traffic.run nonces s
        (before ++ .exchange .processor ⟨.receive nonces, .nonce nonce⟩ :: after) := by
  have hidle : ∀ e ∈ ⟨.isCancelled, false⟩ :: run ++ [⟨.note (.processed nonce), ()⟩],
      ∀ s, Traffic.step nonces s (.exchange .processor e) = some s := by
    rw [List.forall_mem_append, List.forall_mem_cons, List.forall_mem_singleton]
    exact ⟨⟨fun s => rfl, h⟩, fun s => rfl⟩
  have hrest := run_append_idle (s := s) hidle
    (before ++ [.exchange .processor ⟨.receive nonces, .nonce nonce⟩]) after
  rw [List.append_assoc, List.append_assoc] at hrest
  exact hrest

/-- A backfill that runs to its end, and only then a processor, while others write. The simplest of
the histories, which is enough for a witness. -/
def inTurn (course : List Exchange) (events : List StoreEvent) : List CatchUpEvent :=
  course.map .backfill ++ events.map .ofStore

theorem backfilled_inTurn (course : List Exchange) (events : List StoreEvent) :
    backfilled (inTurn course events) = course := by
  have hnone : events.filterMap (CatchUpEvent.backfill? ∘ .ofStore) = [] := by
    refine List.filterMap_eq_nil_iff.mpr fun event _ => ?_
    cases event <;> rfl
  rw [backfilled, inTurn, List.filterMap_append, List.filterMap_map, List.filterMap_map, hnone,
    List.append_nil]
  exact List.filterMap_some

theorem stored_inTurn (course : List Exchange) (events : List StoreEvent) :
    stored (inTurn course events) = events := by
  have hsome : CatchUpEvent.store? ∘ CatchUpEvent.ofStore = some := by
    funext event
    cases event <;> rfl
  rw [stored, inTurn, List.filterMap_append, List.filterMap_map, List.filterMap_map, hsome,
    List.filterMap_some]
  exact congrArg (· ++ events) (List.filterMap_eq_nil_iff.mpr fun _ _ => rfl)

theorem queued_inTurn (sender : Nat) (course : List Exchange) (events : List StoreEvent) :
    queued nonces sender (inTurn course events) = (sentTo nonces course).map (.puts sender) ++
      (StoreEvent.exchanges events).map (.exchange .processor) := by
  rw [queued, inTurn, List.filterMap_append, List.filterMap_map, List.filterMap_map, sentTo,
    StoreEvent.exchanges, List.map_filterMap, List.map_filterMap]
  refine congrArg (_ ++ ·) (List.filterMap_congr fun event _ => ?_)
  cases event <;> rfl

/-! ### Two nonces -/

/-- A backfill of two nonces. The source has both of them, and the queue takes them both, the later
one first. -/
def pairBackfill (queue : QueueId) : List Exchange :=
  [⟨.isCancelled, false⟩, ⟨.source .latestNonce, .ok 2⟩, ⟨.source .earliestNonce, .ok 1⟩,
    ⟨.send queue 2, .sent⟩, ⟨.send queue 1, .sent⟩]

theorem follows_pairBackfill (setup : OrchestratorSetup) (queue : QueueId) :
    Follows (backfill setup queue) (pairBackfill queue) (.ok ()) := by
  have hread : Follows readBounds
      [⟨.source .latestNonce, .ok 2⟩, ⟨.source .earliestNonce, .ok 1⟩] (.ok (1, 2)) := by
    refine .perform_bind (r := .source .latestNonce) ?_
    refine .perform_bind (r := .source .earliestNonce) ?_
    exact .done _
  have hbounds : Follows (retry setup.retry (fun _ => true) fun _ => readBounds)
      [⟨.isCancelled, false⟩, ⟨.source .latestNonce, .ok 2⟩, ⟨.source .earliestNonce, .ok 1⟩]
      (.ok (1, 2)) :=
    follows_retryFrom_of_ok _ hread
  have hsends : Follows (sendDown queue 2 2) [⟨.send queue 2, .sent⟩, ⟨.send queue 1, .sent⟩] () :=
    .perform_bind (.perform_bind (.done _))
  rw [backfill]
  refine follows_bind_iff.mpr ⟨_, _, [⟨.send queue 2, .sent⟩, ⟨.send queue 1, .sent⟩], rfl, hbounds,
    ?_⟩
  exact follows_bind_iff.mpr ⟨_, _, [], rfl, hsends, .done _⟩

/-- The attestations of the source, which are all data commitments of the same range. -/
def pairAttestations (nonce : UInt64) : Attestation :=
  .dataCommitment ⟨nonce, 1, 2⟩

variable {latest : List Exchange} {root : Word} {x : Vrs}

/-- What a run for the first nonce exchanges. It needs no confirm, so it ends behind the read of its
attestation. -/
def firstRun : List Exchange :=
  [⟨.source (.attestation 1), .ok (some (pairAttestations 1))⟩, ⟨.note (.skipped .bootstrap), ()⟩]

theorem follows_firstRun (setup : OrchestratorSetup) :
    Follows (process setup 1) firstRun (.ok (.skipped .bootstrap)) := by
  refine .perform_bind (r := .source (.attestation 1)) ?_
  exact .perform_bind (r := .note (.skipped .bootstrap)) (.done _)

/-- The record of the confirm for the second nonce, by the identity and over a root. -/
def secondRecord (setup : OrchestratorSetup) (root : Word) (x : Vrs) : Bytes :=
  Bytes.ofText (confirmOf setup.address x (some root)).encode

/-- What a run for the second nonce exchanges, up to the confirm that is published. What comes of
the latest valset is left open, since whether the replica accepts that put depends on the source's
valset. -/
def secondRun (setup : OrchestratorSetup) (latest : List Exchange) (root : Word) (x : Vrs) :
    List Exchange :=
  courseToSignature setup 2 ⟨2, 1, 2⟩ latest root x ++
    [⟨.put (Store.confirmKey .dataCommitment 2 setup.address) (secondRecord setup root x)
        setup.store.requestTimeout, .ok ()⟩, ⟨.note (.published .dataCommitment), ()⟩]

/-- **What makes the second run go well**: the latest valset need not be published, but the confirm
is accepted. -/
structure GoesWell (setup : OrchestratorSetup) (latest : List Exchange) (root : Word) (x : Vrs) :
    Prop where
  published : ∃ result, Follows
    (Store.putLatestValset setup.store (Store.soleValset setup.address)) latest result
  failing : ∀ e ∈ latest, ∃ key value limit error, e = ⟨.put key value limit, .error error⟩
  accepted : isAccepted (Store.confirmKey .dataCommitment 2 setup.address)
    (secondRecord setup root x) = true

theorem GoesWell.follows (h : GoesWell setup latest root x) :
    Follows (process setup 2) (secondRun setup latest root x)
      (.ok (.published .dataCommitment)) := by
  obtain ⟨result, hlatest⟩ := h.published
  exact process_follows_published (by decide) hlatest h.accepted

/-- What holds of each exchange up to the signature, and of each that publishes the latest valset.
The exchanges of `courseToSignature` are gone through once here, and not in each of the lemmas
below. -/
theorem forall_mem_courseToSignature {nonce : UInt64} {c : DataCommitment} {P : Exchange → Prop}
    (hattestation : P ⟨.source (.attestation nonce), .ok (some (.dataCommitment c))⟩)
    (hprior : P ⟨.source (.valsetBefore nonce), .ok (Store.soleValset setup.address)⟩)
    (hlatest : ∀ e ∈ latest, P e)
    (hread : P ⟨.get (Store.confirmKey .dataCommitment nonce setup.address)
      setup.store.requestTimeout, .ok []⟩)
    (hroot : P ⟨.source (.dataRoot c.beginBlock c.endBlock), .ok root⟩)
    (hsign : P ⟨.sign (commitmentDigest nonce root), .ok x⟩) :
    ∀ e ∈ courseToSignature setup nonce c latest root x, P e := by
  rw [courseToSignature]
  simp only [List.forall_mem_cons, List.forall_mem_append]
  exact ⟨hattestation, hprior, hlatest, hread, hroot, hsign, List.forall_mem_nil P⟩

/-- The second nonce up to its put. The put itself is left out, since the write to the replica comes
between the two parts. -/
def untilPut (setup : OrchestratorSetup) (latest : List Exchange) (root : Word) (x : Vrs) :
    List Exchange :=
  ⟨.receive 0, .nonce 2⟩ :: ⟨.isCancelled, false⟩ ::
    courseToSignature setup 2 ⟨2, 1, 2⟩ latest root x

/-- What comes behind the put: the rest of the turn for the second nonce, and the turn for the
first. -/
def sincePut : List Exchange :=
  ⟨.note (.published .dataCommitment), ()⟩ :: ⟨.note (.processed 2), ()⟩ ::
    processedTurn 0 1 firstRun

/-- The turn for the second nonce, cut at its put. -/
theorem processedTurn_secondRun : processedTurn 0 2 (secondRun setup latest root x) =
    untilPut setup latest root x ++
      ⟨.put (Store.confirmKey .dataCommitment 2 setup.address) (secondRecord setup root x)
        setup.store.requestTimeout, .ok ()⟩ ::
      [⟨.note (.published .dataCommitment), ()⟩, ⟨.note (.processed 2), ()⟩] := by
  rw [processedTurn, secondRun, untilPut, List.cons_append, List.append_assoc]
  rfl

/-- Around the only replica, the two nonces are processed. The confirm is written to the replica
straight before the put is answered. -/
def pairEvents (setup : OrchestratorSetup) (latest : List Exchange) (root : Word) (x : Vrs) :
    List StoreEvent :=
  StoreEvent.withPut (Overlay.fresh 1) (untilPut setup latest root x)
    (Store.confirmKey .dataCommitment 2 setup.address) (secondRecord setup root x)
    setup.store.requestTimeout sincePut

theorem exchanges_pairEvents : StoreEvent.exchanges (pairEvents setup latest root x) =
    processedTurn 0 2 (secondRun setup latest root x) ++ processedTurn 0 1 firstRun := by
  rw [pairEvents, StoreEvent.exchanges_withPut, processedTurn_secondRun, List.append_assoc]
  rfl

/-- All that happens in the witness: the backfill of the two nonces, and then both of their
turns. -/
def pairHistory (setup : OrchestratorSetup) (latest : List Exchange) (root : Word) (x : Vrs) :
    List CatchUpEvent :=
  inTurn (pairBackfill 0) (pairEvents setup latest root x)

/-! #### The queues -/

theorem GoesWell.loops (h : GoesWell setup latest root x) :
    Loops (fun _ : Unit => processNext setup 0 requeue) ()
      (StoreEvent.exchanges (pairEvents setup latest root x)) () := by
  rw [exchanges_pairEvents]
  exact (Loops.single (follows_processedTurn h.follows)).turn
    (follows_processedTurn (follows_firstRun setup))

theorem GoesWell.idle_secondRun (h : GoesWell setup latest root x) :
    ∀ e ∈ secondRun setup latest root x, ∀ s,
      Traffic.step 0 s (.exchange .processor e) = some s := by
  rw [secondRun, List.forall_mem_append, List.forall_mem_cons, List.forall_mem_singleton]
  refine ⟨forall_mem_courseToSignature ?_ ?_ ?_ ?_ ?_ ?_, fun s => rfl, fun s => rfl⟩
  · exact fun s => rfl
  · exact fun s => rfl
  · intro e he s
    obtain ⟨key, value, limit, error, rfl⟩ := h.failing e he
    rfl
  · exact fun s => rfl
  · exact fun s => rfl
  · exact fun s => rfl

/-- The two nonces are put, and taken one after the other, so that a queue with two places is empty
in the end. -/
theorem GoesWell.exists_run (h : GoesWell setup latest root x) :
    ∃ s, Traffic.run 0 (Traffic.fresh fun _ => 2) (queued 0 0 (pairHistory setup latest root x)) =
      some s ∧ (s 0).items = [] := by
  have hsent : sentTo 0 (pairBackfill 0) = [2, 1] := rfl
  have hfirst : ∀ e ∈ firstRun, ∀ s, Traffic.step 0 s (.exchange .processor e) = some s := by
    rw [firstRun, List.forall_mem_cons, List.forall_mem_singleton]
    exact ⟨fun s => rfl, fun s => rfl⟩
  rw [pairHistory, queued_inTurn, hsent, exchanges_pairEvents, List.map_append,
    run_processedTurn h.idle_secondRun, List.append_cons,
    ← List.append_nil (List.map _ (processedTurn 0 1 firstRun)), run_processedTurn hfirst]
  exact ⟨_, rfl, rfl⟩

/-- **Both are through**, and the queue is empty. Processor and drain each wait for more, which is
what `Underway` asks for at the end of a history. -/
theorem GoesWell.exists_underway (h : GoesWell setup latest root x) :
    ∃ s, Underway setup 0 1 (fun _ => 2) (queued 0 0 (pairHistory setup latest root x)) s ∧
      (s 0).items = [] ∧ (held (queued 0 0 (pairHistory setup latest root x))).hand = none := by
  obtain ⟨s, hrun, hitems⟩ := h.exists_run
  have hloops : Loops (fun _ : Unit => processNext setup 0 1) ()
      (dealings .processor (queued 0 0 (pairHistory setup latest root x))) () := by
    rw [← CatchUpEvent.exchanges_stored, pairHistory, stored_inTurn]
    exact h.loops
  -- Nothing is requeued, so the drain has not done anything.
  have hdrain : dealings .drain (queued 0 0 (pairHistory setup latest root x)) = [] := by
    rw [pairHistory, queued_inTurn]
    refine List.filterMap_eq_nil_iff.mpr fun event hevent => ?_
    rcases List.mem_append.mp hevent with hevent | hevent
    all_goals
      obtain ⟨_, -, rfl⟩ := List.mem_map.mp hevent
      rfl
  -- The history is a chain: two puts, and then the two turns one behind the other.
  have hunbroken : Unbroken (queued 0 0 (pairHistory setup latest root x)) := by
    rw [pairHistory, queued_inTurn, exchanges_pairEvents, List.map_append, ← List.append_assoc]
    exact (((Unbroken.nil.puts 0 2).puts 0 1).append_dealings .processor rfl _).append_dealings
      .processor rfl _
  refine ⟨s, ⟨by decide, hrun, hunbroken, ⟨.receive 0, rfl, hloops.waits .here⟩, ?_⟩, hitems, ?_⟩
  · rw [hdrain]
    exact ⟨0, 0, .pauseUntil 0, rfl, Loops.waits .start .here⟩
  · exact ((handles_of_loops hloops).balanced (by decide)).2

/-! #### The store -/

/-- An exchange that puts no confirm, and reads none. All but one of the witness's exchanges are of
this kind. -/
def Unrelated (e : Exchange) : Prop :=
  e.1.LeavesAlone IsConfirmKey ∧ ∀ key limit values, e = ⟨.get key limit, .ok values⟩ → values = []

theorem unrelated_of_isPut {e : Exchange} (hput : e.1.isPut = false)
    (hget : ∀ key limit, e.1 ≠ .get key limit) : Unrelated e := by
  refine ⟨Request.leavesAlone_of_isPut hput _, ?_⟩
  rintro key limit values rfl
  exact absurd rfl (hget key limit)

/-- The put of the confirm is the only exchange of the witness that concerns a confirm's key. -/
theorem GoesWell.unrelated (h : GoesWell setup latest root x) :
    ∀ e ∈ untilPut setup latest root x ++ sincePut, Unrelated e := by
  rw [untilPut, List.forall_mem_append, List.forall_mem_cons, List.forall_mem_cons]
  refine ⟨⟨unrelated_of_isPut rfl nofun, unrelated_of_isPut rfl nofun,
    forall_mem_courseToSignature ?_ ?_ ?_ ?_ ?_ ?_⟩, ?_⟩
  · exact unrelated_of_isPut rfl nofun
  · exact unrelated_of_isPut rfl nofun
  · -- The latest valset is put, but it is no confirm.
    intro e he
    obtain ⟨result, hlatest⟩ := h.published
    obtain ⟨key, value, limit, error, heq⟩ := h.failing e he
    refine ⟨(conforms_putLatestValset_leavesAlone _ _).begins hlatest.begins he, ?_⟩
    rintro key limit values rfl
    cases heq
  · refine ⟨Request.leavesAlone_of_isPut rfl _, ?_⟩
    rintro key limit values ⟨⟩
    rfl
  · exact unrelated_of_isPut rfl nofun
  · exact unrelated_of_isPut rfl nofun
  · simp only [sincePut, processedTurn, firstRun, List.cons_append, List.nil_append,
      List.forall_mem_cons]
    refine ⟨?_, ?_, ?_, ?_, ?_, ?_, ?_, nofun⟩ <;> exact unrelated_of_isPut rfl nofun

/-- The writes that the replica took are the ones that the puts ask for, and no read shows anything
that was not written. -/
theorem GoesWell.reached (h : GoesWell setup latest root x) :
    Reached (Overlay.fresh 1) (pairEvents setup latest root x) where
  sound replica hreplica := by
    rw [List.eq_of_mem_replicate hreplica]
    exact Replica.sound_empty
  reads before key limit values after hsplit value hvalue := by
    have hmem : (⟨.get key limit, .ok values⟩ : Exchange) ∈
        StoreEvent.exchanges (pairEvents setup latest root x) := by
      rw [hsplit, StoreEvent.exchanges_append]
      exact List.mem_append_right _ List.mem_cons_self
    rw [pairEvents, StoreEvent.exchanges_withPut, List.mem_append, List.mem_cons] at hmem
    -- A read is on one side of the put or on the other, and shows nothing on either.
    rcases hmem with hmem | ⟨⟨⟩⟩ | hmem
    · rw [(h.unrelated _ (List.mem_append_left _ hmem)).2 key limit values rfl] at hvalue
      cases hvalue
    · rw [(h.unrelated _ (List.mem_append_right _ hmem)).2 key limit values rfl] at hvalue
      cases hvalue
  puts before key value limit answer after hkey hsplit := by
    -- It is the one put under a confirm's key, and the write comes straight before it.
    have hno : ∀ t ⊆ untilPut setup latest root x ++ sincePut,
        StoreEvent.exchange ⟨.put key value limit, answer⟩ ∉ t.map .exchange := by
      intro t ht hmem
      obtain ⟨e, he, heq⟩ := List.mem_map.mp hmem
      obtain rfl := StoreEvent.exchange.inj heq
      exact (h.unrelated _ (ht he)).1 key value limit rfl hkey
    have hsame := (List.append_cons_inj_of_notMem (fun hmem => ?_)
      (hno _ (List.subset_append_right _ _))).mp hsplit
    · obtain ⟨rfl, heq, -⟩ := hsame
      cases heq
      exact ⟨0, Nat.one_pos, List.mem_append_right _ List.mem_cons_self⟩
    · rcases List.mem_append.mp hmem with hmem | hmem
      · exact hno _ (List.subset_append_left _ _) hmem
      · obtain ⟨i, -, heq⟩ := List.mem_map.mp hmem
        cases heq

/-- Nobody but the processor writes the identity's keys: the replica is empty at first, and its only
write is that of the put. -/
theorem GoesWell.undisturbed {wanted : UInt64 → Prop} (h : GoesWell setup latest root x) :
    Undisturbed setup 0 requeue pairAttestations wanted (Overlay.fresh 1)
      (pairEvents setup latest root x) where
  before n _ value hvalue := by
    obtain ⟨replica, hreplica, hheld⟩ := List.mem_filterMap.mp hvalue
    rw [List.eq_of_mem_replicate hreplica] at hheld
    cases hheld
  since w hw _ := by
    -- The one write is that of the put.
    obtain rfl : w = ⟨0, Store.confirmKey .dataCommitment 2 setup.address,
        secondRecord setup root x⟩ := by
      rw [pairEvents, StoreEvent.writes_withPut] at hw
      exact List.mem_singleton.mp hw
    refine ⟨untilPut setup latest root x, setup.store.requestTimeout, ?_, ?_⟩
    · rw [pairEvents, StoreEvent.exchanges_withPut]
      exact List.prefix_append _ _
    · -- The put is asked for in the first turn.
      have hturn : Begins (processNext setup 0 requeue)
          (processedTurn 0 2 (secondRun setup latest root x)) :=
        (follows_processedTurn h.follows).begins
      rw [processedTurn_secondRun] at hturn
      have hasks : Asks (processNext setup 0 requeue) (untilPut setup latest root x)
          (.put (Store.confirmKey .dataCommitment 2 setup.address) (secondRecord setup root x)
            setup.store.requestTimeout) := Begins.asks hturn
      dsimp only
      exact ⟨[], untilPut setup latest root x, rfl, .start, hasks⟩

/-- The source has what the two runs ask it for, and the identity signs and is a member. -/
theorem GoesWell.isServed {identity : Identity} {wanted : UInt64 → Prop}
    (h : GoesWell setup latest root x) (hsign : identity.sign (commitmentDigest 2 root) = .ok x)
    (hrecovers : identity.Recovers (commitmentDigest 2 root)) :
    ∀ e ∈ StoreEvent.exchanges (pairEvents setup latest root x),
      IsServed setup identity pairAttestations wanted e := by
  -- A turn adds only the receipt, the look at the token and the note to its run, and these are
  -- served trivially.
  have hturn : ∀ {nonce : UInt64} {run : List Exchange},
      (∀ e ∈ run, IsServed setup identity pairAttestations wanted e) →
      ∀ e ∈ processedTurn 0 nonce run, IsServed setup identity pairAttestations wanted e := by
    intro nonce run hrun
    rw [processedTurn, List.forall_mem_cons, List.forall_mem_append, List.forall_mem_cons,
      List.forall_mem_singleton]
    exact ⟨trivial, ⟨trivial, hrun⟩, trivial⟩
  rw [exchanges_pairEvents, List.forall_mem_append]
  refine ⟨hturn ?_, hturn ?_⟩
  · -- The second nonce: the source answers for the attestation, the valset before it and the root,
    -- and the identity signs.
    rw [secondRun, List.forall_mem_append, List.forall_mem_cons, List.forall_mem_singleton]
    refine ⟨forall_mem_courseToSignature ?_ ?_ ?_ ?_ ?_ ?_, trivial, trivial⟩
    · exact fun _ => rfl
    · exact fun _ => ⟨_, rfl, Store.contains_soleValset setup.address⟩
    · intro e he
      obtain ⟨key, value, limit, error, rfl⟩ := h.failing e he
      trivial
    · exact ⟨_, rfl⟩
    · exact ⟨_, rfl⟩
    · exact ⟨hrecovers, x, hsign, rfl⟩
  · -- The first nonce: only its attestation is read.
    rw [firstRun, List.forall_mem_cons, List.forall_mem_singleton]
    exact ⟨fun _ => rfl, trivial⟩

/-- **A backfill of two nonces** and a processor, with a real key: the second nonce has its confirm,
and the first one needs none. Every hypothesis of `backfill_catches_up` and of `Favourable` is met
by this history. -/
theorem backfill_catches_up_of_pair :
    ∃ (setup : OrchestratorSetup) (history : List CatchUpEvent),
      Follows (backfill setup 0) (backfilled history) (.ok ()) ∧
      sentTo 0 (backfilled history) = [2, 1] ∧
      HoldsVerified ((Overlay.fresh 1).after (StoreEvent.writes (stored history)))
        (pairAttestations 2) 2 setup.address := by
  obtain ⟨x, hsign⟩ := Identity.exists_sign_smallestKey
  have hrecovers := Identity.recovers_smallestKey
  -- Nothing else about the key and its signature is used, so nothing of it is computed.
  generalize Identity.ofKey Ecdsa.smallestKey = identity at hsign hrecovers
  let setup : OrchestratorSetup := ⟨identity.address, .standard, .standard, .standard⟩
  obtain ⟨latest, result, hlatest, hfailing⟩ :=
    exists_follows_putLatestValset setup.store (Store.soleValset setup.address)
  -- The signature is valid, so the replica accepts the confirm under its key, and the second run
  -- goes well.
  have hverify : verifyText (commitmentDigest 2 0) x.render setup.address = .ok () :=
    Identity.verifyText_of_sign hsign hrecovers
  have hcheck : (confirmOf setup.address x (some 0)).checkSignature 2 = .ok () := hverify
  have haccepted := Store.isAccepted_encode hcheck
  rw [signer_confirmOf] at haccepted
  have hwell : GoesWell setup latest 0 x := ⟨⟨result, hlatest⟩, hfailing, haccepted⟩
  have hbackfilled : backfilled (pairHistory setup latest 0 x) = pairBackfill 0 :=
    backfilled_inTurn _ _
  have hstored : stored (pairHistory setup latest 0 x) = pairEvents setup latest 0 x :=
    stored_inTurn _ _
  have hfollows :
      Follows (backfill setup 0) (backfilled (pairHistory setup latest 0 x)) (.ok ()) := by
    rw [hbackfilled]
    exact follows_pairBackfill setup 0
  -- The two hypotheses of the general theorem: the bounds are read, and every send is answered by
  -- `sent`.
  have hread : backfilled (pairHistory setup latest 0 x) = [⟨.isCancelled, false⟩] ++
      ⟨.source .latestNonce, .ok 2⟩ :: ⟨.source .earliestNonce, .ok 1⟩ ::
        [⟨.send 0 2, .sent⟩, ⟨.send 0 1, .sent⟩] := hbackfilled
  have hpushed : ∀ nonce answer,
      ⟨.send 0 nonce, answer⟩ ∈ backfilled (pairHistory setup latest 0 x) → answer = .sent := by
    rw [hbackfilled]
    intro nonce answer hmem
    simp only [pairBackfill, List.mem_cons, List.not_mem_nil, or_false] at hmem
    rcases hmem with ⟨⟨⟩⟩ | ⟨⟨⟩⟩ | ⟨⟨⟩⟩ | ⟨⟨⟩⟩ | ⟨⟨⟩⟩ <;> rfl
  obtain ⟨s, hunderway, hitems, hhand⟩ := hwell.exists_underway
  -- The surroundings do their part.
  have hfavourable : Favourable setup 0 1 0 (fun _ => 2) identity pairAttestations (IsLive 1 2)
      (Overlay.fresh 1) (pairHistory setup latest 0 x) s := by
    refine ⟨hunderway, rfl, ?_, ?_, ?_⟩
    · rw [hstored]
      exact hwell.isServed hsign hrecovers
    · rw [hstored]
      exact hwell.reached
    · rw [hstored]
      exact hwell.undisturbed
  obtain ⟨-, hholds⟩ :=
    (@backfill_catches_up setup 0 1 _ _ _ _ _ _ hfollows hread).2.2 hpushed
  refine ⟨setup, pairHistory setup latest 0 x, hfollows, ?_, ?_⟩
  · rw [hbackfilled]
    rfl
  · -- The second nonce is live, it is not the first one, and neither queue nor hand has it.
    refine hholds _ _ _ _ _ _ hfavourable 2 ⟨by decide, by decide, by decide⟩ (by decide) ?_ ?_
    · rw [hitems]
      exact List.not_mem_nil
    · rw [hhand]
      nofun

end Orchestrator

end Countersign
