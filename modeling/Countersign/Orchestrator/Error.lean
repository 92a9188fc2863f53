import Countersign.Source.Error
import Countersign.Store.Error

/-!
# When an attestation is not signed

The failures of the orchestrator. Those of its neighbours keep their words and classes.
-/

namespace Countersign

/-- **Why the orchestrator failed.** Most of these are failures of somebody else, who is named by
the constructor. -/
inductive OrchestratorError where
  | attestationNotFound (nonce : UInt64)
  | source (error : SourceError)
  | store (error : StoreError)
  | signature (error : SignatureError)
  /-- The source could not be followed any more, after that many attempts. -/
  | subscriptionLost (attempts : Nat)
  /-- A worker ended by accident. -/
  | worker (reason : String)
deriving DecidableEq

namespace OrchestratorError

/-- The error in words. Those of others are told in their words. -/
def message : OrchestratorError → String
  | .attestationNotFound nonce => "attestation " ++ toString nonce.toNat ++ " not found"
  | .source e => e.message
  | .store e => e.message
  | .signature e => e.message
  | .subscriptionLost attempts =>
    "lost the attestation subscription after " ++ toString attempts ++ " reconnection attempts"
  | .worker reason => "worker task failed: " ++ reason

/-- The error's class. Losing the subscription is fatal, as there is nothing to do without it. -/
def failureClass : OrchestratorError → FailureClass
  | .attestationNotFound _ => .notFound
  | .source e => e.failureClass
  | .store e => e.failureClass
  | .signature e => e.failureClass
  | .subscriptionLost _ | .worker _ => .fatal

/-- Whether trying again may help, by the class. -/
def isRetryable (e : OrchestratorError) : Bool :=
  e.failureClass.isRetryable

end OrchestratorError

end Countersign
