import Countersign.FailureClass
import Countersign.Address

/-!
# What can be wrong with a signature

The reasons why signing fails or a signature is not accepted, with their words and classes.
-/

namespace Countersign

/-- **Why signing or checking a signature failed.** The form is looked at before the signer, so a
mismatch is one of a signature in good form. -/
inductive SignatureError where
  /-- The key was never there or has been locked away. -/
  | keyUnavailable
  /-- The text or bytes are no signature, for the given reason. -/
  | malformed (reason : String)
  /-- The recovery byte is none of 0, 1, 27, 28. -/
  | invalidRecoveryByte (v : UInt8)
  /-- `s` is zero or in the upper half of the group's order. -/
  | malleable
  /-- Somebody else signed. -/
  | mismatch (expected recovered : Address)
  /-- The signer gave no signature. -/
  | signer (reason : String)
  /-- The encrypted key file cannot be used. -/
  | keystore
deriving DecidableEq

namespace SignatureError

/-- The error in words. Addresses are shown with their checksum. -/
def message : SignatureError → String
  | .keyUnavailable => "signing key is not available"
  | .malformed reason => "malformed signature: " ++ reason
  | .invalidRecoveryByte v => "invalid signature recovery id: " ++ toString v.toNat
  | .malleable => "malleable signature: s value is not canonical"
  | .mismatch expected recovered =>
    "signature mismatch: expected signer " ++ expected.checksummed ++ ", recovered " ++
      recovered.checksummed
  | .signer reason => "failed to sign digest: " ++ reason
  | .keystore => "keystore error"

/-- The error's class. Without a key nothing can be signed, so this is fatal. -/
def failureClass : SignatureError → FailureClass
  | .keyUnavailable | .keystore => .fatal
  | .signer _ => .transient
  | .malformed _ | .invalidRecoveryByte _ | .malleable | .mismatch _ _ => .invalid

end SignatureError

end Countersign
