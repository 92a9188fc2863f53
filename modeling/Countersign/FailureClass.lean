/-!
# Classes of failures

Every failure of the library belongs to one of four classes, and the class alone decides whether it
is worth trying again (`FailureClass.isRetryable`).
-/

namespace Countersign

/-- **How a failure should be taken.** -/
inductive FailureClass where
  /-- What was asked for does not exist, or not yet. -/
  | notFound
  /-- The input is wrong, and stays wrong. -/
  | invalid
  /-- The network or a peer failed for the moment. -/
  | transient
  /-- There is no way to go on. -/
  | fatal
deriving DecidableEq, Repr

namespace FailureClass

/-- Whether trying again may help. The retries ask for nothing else about a failure. -/
def isRetryable : FailureClass → Bool
  | .notFound | .transient => true
  | .invalid | .fatal => false

end FailureClass

end Countersign
