import Countersign.Attestation

/-!
# Confirms

A confirm is the published signature of one validator for one attestation. That of a valset names
the signer and carries the signature; that of a data commitment also carries the root that was
signed, because the attestation itself does not hold it.
-/

namespace Countersign

/-- **A validator's signature for a valset.** The signature is hexadecimal text. What was signed
follows from the valset, and is not repeated here. -/
structure ValsetConfirm where
  signer : Address
  signature : String
deriving DecidableEq

/-- **A validator's signature for the data root of a commitment**, with the root. With the nonce
from its key it can be verified by itself. -/
structure CommitmentConfirm where
  signature : String
  signer : Address
  commitment : Word
deriving DecidableEq

/-- **A confirm of either kind**, as it is published under its signer's key. -/
inductive Confirm where
  | valset (value : ValsetConfirm)
  | commitment (value : CommitmentConfirm)
deriving DecidableEq

namespace Confirm

/-- Who signed, or so the confirm says. -/
def signer : Confirm → Address
  | .valset c => c.signer
  | .commitment c => c.signer

/-- The signature's hexadecimal text, as it was published. -/
def signature : Confirm → String
  | .valset c => c.signature
  | .commitment c => c.signature

/-- The kind of attestation that is confirmed. -/
def kind : Confirm → AttestationKind
  | .valset _ => .valset
  | .commitment _ => .dataCommitment

end Confirm

end Countersign
