import Countersign.Proofs.Orchestrator.Custody
import Countersign.Proofs.Orchestrator.Traffic

/-!
# No nonce vanishes

An orchestrator owes a signature for every nonce that is sent to its queue. Processor and drain pass
the nonces on between two queues, and the processor finishes some and gives up others. At every
moment at which both workers wait, each nonce that was sent is in exactly one place, and what was
given up or put back was counted as that (`Orchestrator.no_nonce_vanishes`). Nothing is assumed of
how an attempt to sign ends, of who else sends to the queue, or of the order in which all of them
come.

The law is put together from four accounts:

1. what others sent, and what the drain put in, is what the processor took and what is still in the
   queue (`Underway.nonces_perm`);
2. what the processor put back is what the drain took and what is still in the other queue
   (`Underway.requeue_eq`);
3. what the processor took, it has in hand, put back, finished or gave up (`Underway.balanced`);
4. what the drain took it put in (`Underway.returns`).

The last one is the delicate one: the drain takes a nonce from one queue and then tries to put it
into the other, and it has no place for a nonce that is refused. But it has just seen that there is
room, and nobody comes in between as it does not wait meanwhile (`Underway.sent_eq_true`).
-/

namespace Countersign.Orchestrator

open Routine
open Simulation (Queue)

variable {setup : OrchestratorSetup} {nonces requeue : QueueId}

/-! ### Both workers together -/

/-- **Both workers on their way**: they and other senders have dealt with the queues, which were
fresh, and neither of the two has stopped; both wait for an answer. At other moments a nonce may be
on its way from one place to the next. -/
structure Underway (setup : OrchestratorSetup) (nonces requeue : QueueId)
    (capacity : QueueId → Nat) (history : List TrafficEvent) (s : QueueId → Queue) : Prop where
  distinct : nonces ≠ requeue
  run : Traffic.run nonces (Traffic.fresh capacity) history = some s
  unbroken : Unbroken history
  processor : ∃ r, mayWait r = true ∧ Waits (fun _ : Unit => processNext setup nonces requeue) ()
    (dealings .processor history) () r
  drain : ∃ first due r, mayWait r = true ∧ Waits (drainNext setup requeue nonces) first
    (dealings .drain history) due r

/-- What the processor has to do with the nonces after some events: what it has in hand, and what it
did with the others. -/
def held (history : List TrafficEvent) : Custody :=
  custody (motions (dealings .processor history))

/-- How often the two workers counted something. The counters of the service are moved by these
notes only. -/
def counted (m : Motion) (history : List TrafficEvent) : Nat :=
  (motions (dealings .processor history)).count m + (motions (dealings .drain history)).count m

namespace Underway

variable {capacity : QueueId → Nat} {history : List TrafficEvent} {s : QueueId → Queue}

/-- The processor's motions balance, as whole turns do and the begun one does where it waits. -/
theorem balanced (h : Underway setup nonces requeue capacity history s) :
    Balanced nonces requeue (motions (dealings .processor history)) := by
  obtain ⟨r, hwaits, whole, begun, hcourse, hloops, hasks⟩ := h.processor
  obtain ⟨hbalanced, hhand⟩ := (handles_of_loops hloops).balanced h.distinct
  rw [hcourse, motions_append]
  rcases processNext_waits hasks hwaits with hnone | ⟨nonce, htaken⟩
  · rw [hnone, List.append_nil]
    exact hbalanced
  · rw [htaken]
    exact hbalanced.take hhand h.distinct nonce

/-- A drain that waits has made whole turns only, since it waits for its tick and for nothing
else. -/
theorem loops_drain (h : Underway setup nonces requeue capacity history s) :
    ∃ first due, Loops (drainNext setup requeue nonces) first (dealings .drain history) due := by
  obtain ⟨first, due, r, hwaits, whole, begun, hcourse, hloops, hasks⟩ := h.drain
  rcases drainNext_asks hasks with ⟨rfl, -⟩ | ⟨hnot, -⟩
  · rw [hcourse, List.append_nil]
    exact ⟨first, due, hloops⟩
  · rw [hnot] at hwaits
    cases hwaits

/-- Neither of the workers has closed a queue, as that is the end of a worker. -/
theorem closed_notMem (h : Underway setup nonces requeue capacity history s) (carrier : Carrier)
    (queue : QueueId) : .exchange carrier ⟨.closeQueue queue, ()⟩ ∉ history := by
  intro hmem
  have hclosed : .closed queue ∈ motions (dealings carrier history) :=
    List.mem_filterMap.mpr ⟨_, mem_dealings.mpr hmem, rfl⟩
  cases carrier with
  | processor => exact h.balanced.opened queue hclosed
  | drain =>
    obtain ⟨first, due, hloops⟩ := h.loops_drain
    exact closed_notMem_of_loops hloops queue hclosed

/-- What comes before the drain sends, in its own exchanges: its tick, and what it heard and took
since. -/
theorem before_trySend (h : Underway setup nonces requeue capacity history s)
    {before after : List Exchange} {nonce : UInt64} {sent : Bool}
    (hsplit : dealings .drain history = before ++ ⟨.trySend nonces nonce, sent⟩ :: after) :
    ∃ whole due now, before = whole ++ [⟨.pauseUntil due, .elapsed⟩, ⟨.now, now⟩,
      ⟨.hasRoom nonces, true⟩, ⟨.tryReceive requeue, some nonce⟩] := by
  obtain ⟨first, due, r, -, hdrain⟩ := h.drain
  rw [hsplit] at hdrain
  obtain ⟨due', whole, begun, hbefore, -, hasks⟩ := hdrain.exists_waits
  rcases drainNext_asks hasks with ⟨-, ⟨⟩⟩ | ⟨-, hsend⟩
  obtain ⟨-, now, rfl⟩ := hsend nonces nonce rfl
  exact ⟨whole, due', now, hbefore⟩

/-- **The drain can send** what it has taken, because nobody came in between. `Unbroken` says that
its exchanges stand one behind the other from the look for room to the send. -/
theorem sent_eq_true (h : Underway setup nonces requeue capacity history s) {nonce : UInt64}
    {sent : Bool} (hmem : ⟨.trySend nonces nonce, sent⟩ ∈ dealings .drain history) :
    sent = true := by
  obtain ⟨before, after, hhistory⟩ := List.append_of_mem (mem_dealings.mp hmem)
  -- What stands before the send in the history stands before it among the exchanges of the drain.
  have hdealings : dealings .drain history =
      dealings .drain before ++ ⟨.trySend nonces nonce, sent⟩ :: dealings .drain after := by
    rw [hhistory, dealings_append, dealings_exchange_self]
  obtain ⟨whole, due, now, hbefore⟩ := h.before_trySend hdealings
  have hcourse : dealings .drain before = (whole ++ [⟨.pauseUntil due, .elapsed⟩, ⟨.now, now⟩] ++
      [⟨.hasRoom nonces, true⟩]) ++ [⟨.tryReceive requeue, some nonce⟩] := by
    rw [hbefore]
    simp
  -- Straight before it the drain took the nonce, and straight before that it saw room.
  obtain ⟨earlier, rfl, hearlier⟩ := h.unbroken.exists_previous hhistory rfl hcourse
  rw [List.append_assoc] at hhistory
  obtain ⟨earliest, rfl, -⟩ := h.unbroken.exists_previous hhistory rfl hearlier
  -- The queue was open all the time.
  have hrun := h.run
  rw [hhistory, List.append_assoc] at hrun
  obtain ⟨mid, hmid, hrest⟩ := Traffic.run_append hrun
  have hopen : (mid nonces).isOpen = true := by
    rw [Traffic.isOpen_run hmid nonces]
    · rfl
    · intro carrier hclose
      refine h.closed_notMem carrier nonces ?_
      rw [hhistory, List.append_assoc]
      exact List.mem_append_left _ hclose
  exact Traffic.sent_of_hasRoom h.distinct hrest hopen

/-- So the drain puts in whatever it takes. -/
theorem returns (h : Underway setup nonces requeue capacity history s) :
    Returns nonces requeue (motions (dealings .drain history)) := by
  obtain ⟨first, due, hloops⟩ := h.loops_drain
  exact returns_of_loops hloops fun _ _ hmem => h.sent_eq_true hmem

/-- **The queue of nonces**: what others sent and the drain put in is what the processor took and
what is still there. -/
theorem nonces_perm (h : Underway setup nonces requeue capacity history s) :
    (puts history ++ putInto nonces (motions (dealings .drain history))).Perm
      (takenFrom nonces (motions (dealings .processor history)) ++ (s nonces).items) := by
  obtain ⟨-, htaken, -⟩ := h.returns.putInto_eq h.distinct
  have harrivals : (Traffic.arrivals nonces nonces history).Perm
      (puts history ++ putInto nonces (motions (dealings .drain history))) := by
    refine Traffic.arrivals_perm ?_
    rintro (_ | _) hother
    · exact h.balanced.put
    · exact absurd rfl hother
  have hdepartures : Traffic.departures nonces history =
      takenFrom nonces (motions (dealings .processor history)) := by
    refine Traffic.departures_eq ?_
    rintro (_ | _) hother
    · exact absurd rfl hother
    · exact htaken
  have hitems := Traffic.items_append_arrivals h.run nonces
  rw [hdepartures] at hitems
  refine harrivals.symm.trans ?_
  rw [← hitems]
  exact .refl _

end Underway

/-- Settings with a single attempt, so that a failure is the last one at once. -/
def hastySetup : OrchestratorSetup := ⟨⟨0⟩, .standard, ⟨0, 10000⟩, .standard⟩

/-- A nonce that is recent is put back, if the queue has room. -/
theorem requeueOrDrop_follows_putBack (config : OrchestratorConfig) {nonce latest : UInt64}
    (hrecent : isRecent nonce latest config.requeueWindow = true) (queue : QueueId) :
    Follows (requeueOrDrop config nonce queue)
      [⟨.source .latestNonce, .ok latest⟩, ⟨.trySend queue nonce, true⟩, ⟨.note .requeued, ()⟩]
      .requeued := by
  rw [requeueOrDrop_eq]
  refine .perform_bind (r := .source .latestNonce) ?_
  unfold putBack knownLatest
  rw [hrecent]
  refine .perform_bind (r := .trySend queue nonce) ?_
  exact .perform_bind (r := .note .requeued) (.done _)

/-- A turn with a nonce for which all attempts are in vain ends with what is decided about the
nonce. -/
theorem processNext_follows_exhausted {nonce : UInt64} {tries rest : List Exchange}
    {error : OrchestratorError} {decision : RequeueDecision}
    (hexhausts : Exhausts setup.retry.delay (fun _ => process setup nonce)
      OrchestratorError.isRetryable setup.retry.maxRetries 0 tries error)
    (hdecision : Follows (requeueOrDrop setup.config nonce requeue) rest decision) :
    Follows (processNext setup nonces requeue) (⟨.receive nonces, .nonce nonce⟩ :: (tries ++ rest))
      (.again ()) := by
  rw [processNext]
  refine .perform_bind (r := .receive nonces) ?_
  refine hexhausts.follows.bind ?_
  rw [← List.append_nil rest]
  exact hdecision.bind (.done _)

end Countersign.Orchestrator
