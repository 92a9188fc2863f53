import Countersign.Orchestrator.Process

/-!
# The workers of an orchestrator

Four workers share two queues of nonces:

* the **listener** follows the source and puts every new nonce into the queue. It subscribes again
  when its stream ends or fails, or the source shows no sign of life, and then first sends what was
  made in between;
* the **backfill** sends everything from the latest nonce down to the earliest one that is still
  live, and ends;
* the **processor** takes one nonce at a time and signs it, trying again as its policy says;
* the **drain** moves one nonce that was put back into the first queue at each tick.

Listener, processor and drain are loops: a step from state to state.
-/

namespace Countersign.Orchestrator

/-- A clock that ticks at equal distances. The tick is due at `due`; taken more than five
milliseconds late, the next one is due a whole period later, so that missed ticks are not made up
for. -/
def nextTick (period due now : Nat) : Nat :=
  if due + 5 < now then now + period else due + period

/-- The number of nonces from `first` to `last`, both included, and none if they are in the wrong
order. -/
def rangeSize (first last : UInt64) : Nat :=
  last.toNat + 1 - first.toNat

/-! ### The listener -/

/-- **What a listener is about to do**, with all that it needs for it. -/
inductive ListenerPhase where
  | connecting
  /-- Sending what was missed, from `next` on, `left` nonces in all. -/
  | catchingUp (stream : StreamId) (next : UInt64) (left : Nat) (latest : UInt64)
  | receiving (stream : StreamId) (tick : Nat)
deriving DecidableEq

/-- **The state of a listener** between two turns. -/
structure ListenerState where
  phase : ListenerPhase
  /-- The greatest nonce that was seen. -/
  lastSeen : Option UInt64
deriving DecidableEq

/-- A listener's first state: it has no stream, and has seen nothing. -/
def ListenerState.start : ListenerState := ⟨.connecting, none⟩

/-- The greater one of what was seen and a nonce. A stream may bring nonces out of order. -/
def seeing (lastSeen : Option UInt64) (nonce : UInt64) : Option UInt64 :=
  match lastSeen with
  | none => some nonce
  | some seen => some (if seen ≤ nonce then nonce else seen)

/-- Asking the source until it answers; nothing once the task is cancelled. Any error is worth
another attempt here, and the attempts are limited. -/
def persist {α : Type} (setup : OrchestratorSetup) (query : Routine (Except SourceError α)) :
    Routine (Except OrchestratorError (Option α)) := do
  match ← Routine.retry setup.retry (fun _ => true) (fun _ => query) with
  | .ok a => return .ok (some a)
  | .error .cancelled => return .ok none
  | .error (.exhausted attempts _) => return .error (.subscriptionLost attempts)
  | .error (.aborted e) => return .error (.source e)

/-- Taking up the reception: the clock for signs of life starts anew, so the first of them is a
whole period away. -/
def startReceiving (setup : OrchestratorSetup) (stream : StreamId) (lastSeen : Option UInt64) :
    Routine (Turn ListenerState WorkerResult) := do
  let now ← Request.now.perform
  return .again ⟨.receiving stream (now + setup.config.livenessInterval), lastSeen⟩

/-- **Subscribing, and finding out what was missed.** The first time nothing was: what came before
is the backfill's. -/
def connect (setup : OrchestratorSetup) (lastSeen : Option UInt64) :
    Routine (Turn ListenerState WorkerResult) := do
  match ← persist setup SourceQuery.subscribe.perform with
  | .error e => return .finish (.error e)
  | .ok none => return .finish (.ok ())
  | .ok (some stream) =>
    match ← persist setup SourceQuery.latestNonce.perform with
    | .error e => return .finish (.error e)
    | .ok none => return .finish (.ok ())
    | .ok (some latest) =>
      match lastSeen with
      | some seen =>
        -- Another time: what was made since the last nonce that was seen.
        let next := saturatingAdd seen 1
        return .again ⟨.catchingUp stream next (rangeSize next latest) latest, lastSeen⟩
      | none => startReceiving setup stream (some latest)

/-- **One turn of the listener.** -/
def listen (setup : OrchestratorSetup) (queue : QueueId) (s : ListenerState) :
    Routine (Turn ListenerState WorkerResult) :=
  match s.phase with
  | .connecting => connect setup s.lastSeen
  | .catchingUp stream _ 0 latest => startReceiving setup stream (seeing s.lastSeen latest)
  | .catchingUp stream next (left + 1) latest => do
    match ← (Request.send queue next).perform with
    | .sent => return .again ⟨.catchingUp stream (next + 1) left latest, s.lastSeen⟩
    | .closed | .cancelled => return .finish (.ok ())
  | .receiving stream tick => do
    match ← (Request.nextSignal stream tick).perform with
    | .cancelled => return .finish (.ok ())
    -- A source that does not answer is taken for lost, and followed anew.
    | .tick =>
      let now ← Request.now.perform
      match ← SourceQuery.health.perform with
      | .ok () =>
        return .again ⟨.receiving stream (nextTick setup.config.livenessInterval tick now),
          s.lastSeen⟩
      | .error _ => return .again ⟨.connecting, s.lastSeen⟩
    | .nonce nonce =>
      match ← (Request.send queue nonce).perform with
      | .sent => return .again ⟨.receiving stream tick, seeing s.lastSeen nonce⟩
      | .closed | .cancelled => return .finish (.ok ())
    | .failed _ | .ended => return .again ⟨.connecting, s.lastSeen⟩

/-! ### The backfill -/

/-- The bounds of what is live, the latest nonce read first. What is made between the two reads lies
above the bounds. -/
def readBounds : Routine (Except OrchestratorError (UInt64 × UInt64)) := do
  match ← SourceQuery.latestNonce.perform with
  | .error e => return .error (.source e)
  | .ok latest =>
    match ← SourceQuery.earliestNonce.perform with
    | .error e => return .error (.source e)
    | .ok earliest => return .ok (earliest, latest)

/-- Sending `count` nonces downwards from `nonce`. It waits where the queue has no room, and ends
early if nobody takes from it any more. -/
def sendDown (queue : QueueId) : (count : Nat) → (nonce : UInt64) → Routine Unit
  | 0, _ => return ()
  | count + 1, nonce => do
    match ← (Request.send queue nonce).perform with
    | .sent => sendDown queue count (nonce - 1)
    | .closed | .cancelled => return ()

/-- The whole course of the backfill. It gives up quietly if the bounds cannot be read. -/
def backfill (setup : OrchestratorSetup) (queue : QueueId) : Routine WorkerResult := do
  match ← Routine.retry setup.retry (fun _ => true) (fun _ => readBounds) with
  | .error _ => return .ok ()
  | .ok (earliest, latest) =>
    let first := if earliest ≤ bootstrapNonce then bootstrapNonce else earliest
    sendDown queue (rangeSize first latest) latest
    return .ok ()

/-! ### The processor -/

/-- The end of the processor, who takes nothing any more. Closing the queue tells the other
workers. -/
def stopProcessing (nonces : QueueId) (result : WorkerResult) :
    Routine (Turn Unit WorkerResult) := do
  (Request.closeQueue nonces).perform
  return .finish result

/-- **One turn of the processor**: one nonce, with as many attempts as its policy allows. A nonce
that failed is put back, or given up, or it ends the processor, by how it failed. -/
def processNext (setup : OrchestratorSetup) (nonces requeue : QueueId) :
    Routine (Turn Unit WorkerResult) := do
  match ← (Request.receive nonces).perform with
  | .cancelled => stopProcessing nonces (.ok ())
  | .nonce nonce =>
    match ← Routine.retry setup.retry OrchestratorError.isRetryable
        (fun _ => process setup nonce) with
    | .ok _ =>
      (Request.note (.processed nonce)).perform
      return .again ()
    | .error .cancelled => stopProcessing nonces (.ok ())
    | .error (.exhausted _ _) =>
      let _ ← requeueOrDrop setup.config nonce requeue
      return .again ()
    | .error (.aborted e) =>
      -- A fatal failure would meet every other nonce too.
      if e.failureClass = .fatal then stopProcessing nonces (.error e)
      else
        (Request.note .dropped).perform
        return .again ()

/-! ### The drain -/

/-- **One turn of the drain**, whose next tick is due at `due`. It looks for room before it takes a
nonce, and takes one at most. -/
def drainNext (setup : OrchestratorSetup) (requeue nonces : QueueId) (due : Nat) :
    Routine (Turn Nat WorkerResult) := do
  match ← (Request.pauseUntil due).perform with
  | .cancelled =>
    (Request.closeQueue requeue).perform
    return .finish (.ok ())
  | .elapsed =>
    let now ← Request.now.perform
    let next := nextTick setup.config.requeueInterval due now
    if !(← (Request.hasRoom nonces).perform) then return .again next
    match ← (Request.tryReceive requeue).perform with
    | none => return .again next
    | some nonce =>
      let _ ← (Request.trySend nonces nonce).perform
      return .again next

end Countersign.Orchestrator
