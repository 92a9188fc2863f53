import Countersign.Routine.Basic

/-!
# Trying again

An operation that fails is tried again after a fixed delay, a limited number of times
(`RetryPolicy`). It is not tried again if its error does not warrant it, nor once the task is
cancelled: cancellation is looked for before each attempt and while waiting, but never breaks off an
attempt that has begun (`Routine.retry`).
-/

namespace Countersign

/-! ### Delays -/

/-- **A supply of equal delays**, of which some are used up. It is what a policy becomes once
attempts are counted. -/
structure Backoff where
  interval : Nat
  limit : Nat
  used : Nat
deriving DecidableEq

namespace Backoff

/-- A fresh supply, of which nothing is used. -/
def make (interval limit : Nat) : Backoff := ⟨interval, limit, 0⟩

/-- The next delay, as long as there is one, and the supply behind it. -/
def next (b : Backoff) : Option Nat × Backoff :=
  if b.used < b.limit then (some b.interval, { b with used := b.used + 1 }) else (none, b)

/-- Filling the supply up again, as after a success. -/
def reset (b : Backoff) : Backoff := { b with used := 0 }

/-- How many delays there still are. It falls with each one that is taken, so trying again comes to
an end. -/
def left (b : Backoff) : Nat := b.limit - b.used

/-- All that taking a delay can come to: there is none and the supply stays as it is, or it is the
interval and the supply has one less. -/
theorem next_cases (b : Backoff) :
    (b.left = 0 ∧ b.next = (none, b)) ∨
      ∃ rest : Backoff, b.next = (some b.interval, rest) ∧ rest.interval = b.interval ∧
        b.left = rest.left + 1 := by
  unfold left next
  split
  · exact Or.inr ⟨_, rfl, rfl, by dsimp only; omega⟩
  · exact Or.inl ⟨by omega, rfl⟩

/-- A delay that is taken leaves one less, which is why the attempts end. -/
theorem left_lt_of_next {b rest : Backoff} {delay : Nat} (h : b.next = (some delay, rest)) :
    rest.left < b.left := by
  obtain ⟨-, hnone⟩ | ⟨rest', hsome, -, hleft⟩ := b.next_cases
  · cases hnone.symm.trans h
  · obtain rfl : rest' = rest := (Prod.mk.inj (hsome.symm.trans h)).2
    omega

end Backoff

/-! ### Policies -/

/-- **How often, and after which delay, something is tried again.** The first attempt is not
counted, so there is one attempt more than retries. -/
structure RetryPolicy where
  maxRetries : Nat
  delay : Nat
deriving DecidableEq

namespace RetryPolicy

/-- The policy where nothing else is said: six retries, ten seconds apart. -/
def standard : RetryPolicy := ⟨6, 10000⟩

/-- The longest delay that is allowed, ten minutes. -/
def maxDelay : Nat := 600000

/-- What is wrong with a policy, in words. A delay of zero would try again without a pause. -/
def check (policy : RetryPolicy) : Except String Unit :=
  if policy.delay = 0 ∨ maxDelay < policy.delay then
    .error ("Retry delay must be between 1ms and " ++ toString maxDelay ++ "ms, got " ++
      toString policy.delay ++ "ms")
  else .ok ()

end RetryPolicy

/-! ### Retrying -/

/-- **Why an operation was given up**, which its caller may treat in three ways: as an end, as a
failure for the time being, or as one for good. -/
inductive RetryError (ε : Type) where
  | cancelled
  /-- All attempts failed, the last with the given error. -/
  | exhausted (attempts : Nat) (error : ε)
  /-- An attempt failed in a way that trying again does not mend. -/
  | aborted (error : ε)
deriving DecidableEq

namespace RetryError

variable {ε : Type}

/-- The error in words, given those of the operation. The number of attempts is part of it. -/
def message (inner : ε → String) : RetryError ε → String
  | .cancelled => "operation cancelled"
  | .exhausted attempts e => "giving up after " ++ toString attempts ++ " attempts: " ++ inner e
  | .aborted e => "non-retryable failure: " ++ inner e

/-- The operation's own error, if there is one. A cancellation hides the failures before it. -/
def inner? : RetryError ε → Option ε
  | .cancelled => none
  | .exhausted _ e => some e
  | .aborted e => some e

end RetryError

namespace Routine

variable {ε α : Type}

/-- **Attempts from number `attempt` on**, with the delays that are left of a supply: one is taken
before each further attempt, and there is no other attempt once the supply is used up. -/
def retryFrom (operation : Nat → Routine (Except ε α)) (retryable : ε → Bool) (backoff : Backoff)
    (attempt : Nat) : Routine (Except (RetryError ε) α) := do
  if ← Request.isCancelled.perform then return .error .cancelled
  match ← operation attempt with
  | .ok a => return .ok a
  | .error e =>
    -- A failure for good takes no delay from the supply.
    if !retryable e then return .error (.aborted e)
    match hnext : backoff.next with
    | (none, _) => return .error (.exhausted (attempt + 1) e)
    | (some delay, rest) =>
      match ← (Request.pause delay).perform with
      | .cancelled => return .error .cancelled
      | .elapsed => retryFrom operation retryable rest (attempt + 1)
termination_by backoff.left
decreasing_by exact Backoff.left_lt_of_next hnext

/-- Trying an operation again while its errors are retryable. The operation is told the number of
the attempt, from zero, and what it does may depend on it. -/
def retry (policy : RetryPolicy) (retryable : ε → Bool)
    (operation : Nat → Routine (Except ε α)) : Routine (Except (RetryError ε) α) :=
  retryFrom operation retryable (.make policy.delay policy.maxRetries) 0

end Routine

end Countersign
