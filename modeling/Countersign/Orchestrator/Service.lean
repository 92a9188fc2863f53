import Countersign.Orchestrator.Workers

/-!
# The orchestrator as a whole

The service starts its four workers and waits for all of them. If one fails, the others are
cancelled, and the first failure is the service's result. The signing key is locked at the end in
any case.
-/

namespace Countersign.Orchestrator

/-- The result of several workers in the order in which they ended: the first failure, as what
follows it is often its consequence. -/
def firstFailure (before next : WorkerResult) : WorkerResult :=
  match before with
  | .error e => .error e
  | .ok () => next

/-- Waiting for `count` more workers. A failure cancels the others, which are waited for all the
same. -/
def joinWorkers : (count : Nat) → (tasks : List TaskId) → WorkerResult → Routine WorkerResult
  | 0, _, result => return result
  | count + 1, tasks, result => do
    let (task, ended) ← (Request.joinAny tasks).perform
    if let .error _ := ended then Request.cancel.perform
    joinWorkers count (tasks.erase task) (firstFailure result ended)

/-- The whole course of the service, from opening the queues to locking the key. It ends when all
its workers have. -/
def serve (setup : OrchestratorSetup) : Routine WorkerResult := do
  let nonces ← (Request.openQueue setup.config.queueSize).perform
  let requeue ← (Request.openQueue setup.config.requeueQueueSize).perform
  let listener ← (Request.spawn (.listener nonces)).perform
  let backfill ← (Request.spawn (.backfill nonces)).perform
  let processor ← (Request.spawn (.processor nonces requeue)).perform
  let drain ← (Request.spawn (.drain requeue nonces)).perform
  -- However the workers ended, the key is locked before the result is given.
  let result ← joinWorkers 4 [listener, backfill, processor, drain] (.ok ())
  Request.lockKey.perform
  return result

end Countersign.Orchestrator
