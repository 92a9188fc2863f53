import Countersign.Contract.Submission
import Countersign.Metrics
import Countersign.Orchestrator.Error

/-!
# What services ask of their surroundings

The services of this library do nothing by themselves. All they can do is ask: the source chain, the
replicas of the store, the contract, the clock, the signer, the queues between workers. A `Request`
is one such question, and `Request.Answer` the type of what comes back.

Some requests may take time, and while they wait others can go on. Of these, `pause`, `pauseUntil`,
`send`, `receive` and `nextSignal` also end when the task that asks is cancelled; the others run to
their end.
-/

namespace Countersign

/-- **A question to the source chain.** Each of them is one call to a node, and may fail like
one. -/
inductive SourceQuery where
  | attestation (nonce : UInt64)
  | latestNonce
  | earliestNonce
  | valsetBefore (nonce : UInt64)
  | dataRoot (beginBlock endBlock : UInt64)
  /-- A stream of the nonces of attestations made from now on. -/
  | subscribe
  | health
  | latestHeight
  /-- An attestation as it stood at a height of the past. -/
  | attestationAt (nonce height : UInt64)
deriving DecidableEq

/-- The number of a stream of nonces. A stream that is lost keeps its number, and a new one has
another. -/
abbrev StreamId := Nat

/-- What the source answers. An attestation that the source does not know is no failure. -/
@[reducible] def SourceQuery.Answer : SourceQuery → Type
  | .attestation _ => Except SourceError (Option Attestation)
  | .latestNonce => Except SourceError UInt64
  | .earliestNonce => Except SourceError UInt64
  | .valsetBefore _ => Except SourceError Valset
  | .dataRoot _ _ => Except SourceError Word
  | .subscribe => Except SourceError StreamId
  | .health => Except SourceError Unit
  | .latestHeight => Except SourceError UInt64
  | .attestationAt _ _ => Except SourceError (Option Attestation)

/-- **What a quorum is about**: the kind and the nonce of an attestation, and the digest that must
be signed. It does not say whose quorum. -/
structure QuorumTarget where
  kind : AttestationKind
  nonce : UInt64
  digest : Word
deriving DecidableEq

/-- The number of a queue of nonces, by which workers share it. -/
abbrev QueueId := Nat

/-- The number of a task, by which it is waited for. -/
abbrev TaskId := Nat

/-- **How a wait ended**: its time was over, or the task that waits was cancelled. -/
inductive Wait where
  | elapsed
  | cancelled
deriving DecidableEq

/-- **How putting a nonce into a queue ended.** It waits for room, so the task may be cancelled
meanwhile. -/
inductive Sending where
  | sent
  /-- Nobody takes from the queue any more. -/
  | closed
  | cancelled
deriving DecidableEq

/-- **How taking a nonce from a queue ended.** It waits for a nonce, so the task may be cancelled
meanwhile. -/
inductive Receiving where
  | nonce (value : UInt64)
  | cancelled
deriving DecidableEq

/-- **What a listener hears first** of all that it waits for at the same time. -/
inductive Signal where
  | cancelled
  /-- The time for a sign of life has come. -/
  | tick
  | nonce (value : UInt64)
  | failed (error : SourceError)
  | ended
deriving DecidableEq

/-- **The workers of an orchestrator**, with the queues that they share. Who starts one says which
queues it uses, and how. -/
inductive Worker where
  | listener (nonces : QueueId)
  | backfill (nonces : QueueId)
  | processor (nonces requeue : QueueId)
  | drain (requeue nonces : QueueId)
deriving DecidableEq

/-- How a worker ended: it was told to, or it failed. -/
abbrev WorkerResult := Except OrchestratorError Unit

/-- **A request to the surroundings.** Times are in milliseconds. Whatever a service does to the
outside is one of these, so what it can do at all is read off this list. -/
inductive Request where
  | source (query : SourceQuery)
  /-- Writing a record to the replicas, within a time. -/
  | put (key : String) (value : Bytes) (limit : Nat)
  /-- The candidates for a key, within a time. -/
  | get (key : String) (limit : Nat)
  /-- The candidates for several keys, asked for at once, each within a time. -/
  | getAll (keys : List String) (limit : Nat)
  /-- The records of a quorum that was remembered. -/
  | recall (target : QuorumTarget)
  | remember (target : QuorumTarget) (records : List Bytes)
  | now
  | isCancelled
  | pause (ms : Nat)
  | pauseUntil (time : Nat)
  /-- Work that takes a time and cannot be broken off. -/
  | labour (ms : Nat)
  | cancel
  | lastRelayed
  | submit (submission : Submission)
  | sign (digest : Word)
  | lockKey
  | openQueue (capacity : Nat)
  | send (queue : QueueId) (nonce : UInt64)
  | trySend (queue : QueueId) (nonce : UInt64)
  | receive (queue : QueueId)
  | tryReceive (queue : QueueId)
  | hasRoom (queue : QueueId)
  /-- Taking nothing from a queue any more. -/
  | closeQueue (queue : QueueId)
  /-- The next nonce of a stream, or a sign of life at a time. -/
  | nextSignal (stream : StreamId) (tick : Nat)
  | spawn (worker : Worker)
  /-- The first of the tasks to end. -/
  | joinAny (tasks : List TaskId)
  | note (event : Event)
deriving DecidableEq

/-- **What comes back for a request.** A request that cannot fail has an answer without an error. -/
@[reducible] def Request.Answer : Request → Type
  | .source query => query.Answer
  | .put _ _ _ => Except OverlayError Unit
  | .get _ _ => Except OverlayError (List Bytes)
  | .getAll _ _ => List (Except OverlayError (List Bytes))
  | .recall _ => Option (List Bytes)
  | .remember _ _ => Unit
  | .now => Nat
  | .isCancelled => Bool
  | .pause _ => Wait
  | .pauseUntil _ => Wait
  | .labour _ => Unit
  | .cancel => Unit
  | .lastRelayed => Except SubmitterError UInt64
  | .submit _ => Except SubmitterError Word
  | .sign _ => Except SignatureError Vrs
  | .lockKey => Unit
  | .openQueue _ => QueueId
  | .send _ _ => Sending
  | .trySend _ _ => Bool
  | .receive _ => Receiving
  | .tryReceive _ => Option UInt64
  | .hasRoom _ => Bool
  | .closeQueue _ => Unit
  | .nextSignal _ _ => Signal
  | .spawn _ => TaskId
  | .joinAny _ => TaskId × WorkerResult
  | .note _ => Unit

end Countersign
