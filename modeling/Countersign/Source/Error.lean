import Countersign.Attestation
import Countersign.FailureClass

/-!
# When the source chain does not answer

The ways in which a question to the source chain fails. Only a missing valset and a failed request
are worth asking again.
-/

namespace Countersign

/-- **Why the source gave no answer**, or one that cannot be used. -/
inductive SourceError where
  /-- The request did not get through. -/
  | transport (reason : String)
  /-- There is no valset before the given nonce. -/
  | valsetNotFound (nonce : UInt64)
  /-- The answer is no attestation. -/
  | attestation (error : AttestationError)
  /-- The answer cannot be read. -/
  | malformed (reason : String)
deriving DecidableEq

namespace SourceError

/-- The error in words. -/
def message : SourceError → String
  | .transport reason => "attestation source request failed: " ++ reason
  | .valsetNotFound nonce => "no valset found before nonce " ++ toString nonce.toNat
  | .attestation e => e.message
  | .malformed reason => "malformed attestation source response: " ++ reason

/-- The error's class, by which callers decide whether to ask again. -/
def failureClass : SourceError → FailureClass
  | .transport _ => .transient
  | .valsetNotFound _ => .notFound
  | .attestation _ | .malformed _ => .invalid

end SourceError

end Countersign
