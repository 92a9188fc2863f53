import Countersign.Retry

/-!
# A clock with one cancellation

The smallest surroundings: a clock, a time at which the task is cancelled, and a count of the pieces
of work done. Everything that takes time is waited for at once. It is all that retrying needs
(`rehearseRetry`); other requests are not made there, and are answered without effect.
-/

namespace Countersign.Simulation

/-- **A clock**, the time of the cancellation, if there is one, and the number of pieces of work. -/
structure Clock where
  now : Nat
  cancelAt : Option Nat
  labours : Nat

namespace Clock

/-- Whether the task is cancelled. The time of the cancellation itself already counts. -/
def isCancelled (c : Clock) : Bool :=
  match c.cancelAt with
  | some time => time ≤ c.now
  | none => false

/-- A wait until a time, ended by the cancellation. If both fall on the same millisecond it is the
cancellation that is reported, as a task looks for it first. -/
def await (c : Clock) (time : Nat) : Wait × Clock :=
  match c.cancelAt with
  | some cancelled =>
    if cancelled ≤ max time c.now then (.cancelled, { c with now := max c.now cancelled })
    else (.elapsed, { c with now := max c.now time })
  | none => (.elapsed, { c with now := max c.now time })

/-- **The clock's answers.** Only time and cancellation have a meaning here; every other request is
answered as by surroundings that hold nothing. -/
def respond : Routine.Responder Clock
  | .isCancelled, c => (c.isCancelled, c)
  | .now, c => (c.now, c)
  | .pause ms, c => c.await (c.now + ms)
  | .pauseUntil time, c => c.await time
  | .labour ms, c => ((), { c with now := c.now + ms, labours := c.labours + 1 })
  | .source q, c => (noAnswer q, c)
  | .put _ _ _, c => (.error (.unavailable "nothing"), c)
  | .get _ _, c => (.error (.unavailable "nothing"), c)
  | .getAll _ _, c => ([], c)
  | .recall _, c => (none, c)
  | .remember _ _, c => ((), c)
  | .cancel, c => ((), { c with cancelAt := some c.now })
  | .lastRelayed, c => (.error .rpc, c)
  | .submit _, c => (.error .rpc, c)
  | .sign _, c => (.error .keyUnavailable, c)
  | .lockKey, c => ((), c)
  | .openQueue _, c => (0, c)
  | .send _ _, c => (.closed, c)
  | .trySend _ _, c => (false, c)
  | .receive _, c => (.cancelled, c)
  | .tryReceive _, c => (none, c)
  | .hasRoom _, c => (false, c)
  | .closeQueue _, c => ((), c)
  | .nextSignal _ _, c => (.ended, c)
  | .spawn _, c => (0, c)
  | .joinAny _, c => ((0, .ok ()), c)
  | .note _, c => ((), c)
where
  /-- No source is there to answer. -/
  noAnswer : (q : SourceQuery) → q.Answer
    | .attestation _ => .error (.transport "nothing")
    | .latestNonce => .error (.transport "nothing")
    | .earliestNonce => .error (.transport "nothing")
    | .valsetBefore _ => .error (.transport "nothing")
    | .dataRoot _ _ => .error (.transport "nothing")
    | .subscribe => .error (.transport "nothing")
    | .health => .error (.transport "nothing")
    | .latestHeight => .error (.transport "nothing")
    | .attestationAt _ _ => .error (.transport "nothing")

end Clock

/-- **How attempts of an operation end**: with success, or with an error, of which some are not
worth trying again. -/
inductive Attempt where
  | success
  | failure (error : String)
deriving DecidableEq

/-- An operation whose attempts take a time and end as planned; the last plan holds for all further
attempts. A success gives the number of the attempt. -/
def plannedOperation (ms : Nat) (plan : List Attempt) (attempt : Nat) :
    Routine (Except String Nat) := do
  (Request.labour ms).perform
  match plan.getD (min attempt (plan.length - 1)) .success with
  | .success => return .ok attempt
  | .failure error => return .error error

/-- **What retrying came to**: the result, the number of attempts, and the time it took, waits
included. -/
structure RetryReport where
  result : Except (RetryError String) Nat
  attempts : Nat
  elapsed : Nat

/-- Retrying a planned operation with a cancellation at a time. -/
def rehearseRetry (policy : RetryPolicy) (retryable : String → Bool) (ms : Nat)
    (plan : List Attempt) (cancelAt : Option Nat) : RetryReport :=
  let (result, clock) := (Routine.retry policy retryable (plannedOperation ms plan)).run
    Clock.respond ⟨0, cancelAt, 0⟩
  ⟨result, clock.labours, clock.now⟩

end Countersign.Simulation
