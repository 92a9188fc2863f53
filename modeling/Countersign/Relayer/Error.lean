import Countersign.Contract.Submission
import Countersign.Source.Error
import Countersign.Store.Error

/-!
# When an attestation is not relayed

The failures of the relayer. Those of its neighbours keep their words and classes.
-/

namespace Countersign

/-- **Why the relayer failed.** A turn that fails is tried again later, whatever the reason; only
the store's cancellation ends the service. -/
inductive RelayerError where
  /-- The attestation is neither live nor found at any height of the past. -/
  | attestationNotFound (nonce : UInt64)
  | source (error : SourceError)
  | store (error : StoreError)
  | submitter (error : SubmitterError)
  | signature (error : SignatureError)
deriving DecidableEq

namespace RelayerError

/-- The error in words. Those of others are told in their words. -/
def message : RelayerError → String
  | .attestationNotFound nonce => "attestation " ++ toString nonce.toNat ++ " not found"
  | .source e => e.message
  | .store e => e.message
  | .submitter e => e.message
  | .signature e => e.message

/-- The error's class. -/
def failureClass : RelayerError → FailureClass
  | .attestationNotFound _ => .notFound
  | .source e => e.failureClass
  | .store e => e.failureClass
  | .submitter e => e.failureClass
  | .signature e => e.failureClass

end RelayerError

end Countersign
