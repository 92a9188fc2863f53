import Countersign.Attestation
import Countersign.FailureClass
import Countersign.Signature.Vrs
import Countersign.Text.Duration

/-!
# What is handed to the bridge contract

A submission commits one attestation, with one signature for each member of the valset before it,
in the order of its members; `Vrs.zero` stands for those who have not signed.
-/

namespace Countersign

/-- **An attestation with its signatures**, and with the valset whose members made them. -/
inductive Submission where
  | valset (new : Valset) (threshold : UInt64) (current : Valset) (signatures : List Vrs)
  | dataRoot (nonce : UInt64) (root : Word) (current : Valset) (signatures : List Vrs)
deriving DecidableEq

namespace Submission

/-- The nonce that is committed, the next one for the contract. -/
def nonce : Submission → UInt64
  | .valset new _ _ _ => new.nonce
  | .dataRoot nonce _ _ _ => nonce

/-- The kind of attestation that is committed. -/
def kind : Submission → AttestationKind
  | .valset .. => .valset
  | .dataRoot .. => .dataCommitment

/-- The valset whose members signed. -/
def current : Submission → Valset
  | .valset _ _ current _ => current
  | .dataRoot _ _ current _ => current

/-- The signatures, by place in the valset. There are as many as members. -/
def signatures : Submission → List Vrs
  | .valset _ _ _ signatures => signatures
  | .dataRoot _ _ _ signatures => signatures

end Submission

/-- **Why the contract did not take a submission or answer a question.** After a timeout it is not
known whether the transaction will still come into a block. -/
inductive SubmitterError where
  /-- The request did not get through. -/
  | rpc
  /-- The transaction came into a block and was undone. -/
  | reverted (transaction : Word)
  /-- The transaction was in no block after the given number of milliseconds. -/
  | receiptTimeout (limit : Nat)
  /-- The contract's answer makes no sense. -/
  | contract (reason : String)
deriving DecidableEq

namespace SubmitterError

/-- The error in words. What exactly a request failed of is left out. -/
def message : SubmitterError → String
  | .rpc => "target chain request failed"
  | .reverted transaction => "transaction " ++ transaction.render ++ " reverted"
  | .receiptTimeout limit => "no receipt after " ++ Text.duration limit
  | .contract reason => "unexpected contract state: " ++ reason

/-- The error's class, by which callers decide whether to try again. -/
def failureClass : SubmitterError → FailureClass
  | .rpc | .receiptTimeout _ => .transient
  | .reverted _ | .contract _ => .invalid

end SubmitterError

end Countersign
