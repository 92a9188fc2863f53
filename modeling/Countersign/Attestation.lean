import Countersign.Valset

/-!
# Attestations

What the source chain asks its validators to countersign, numbered by nonces from 1: a new
validator set, or a commitment to the data roots of a range of blocks.

The threshold of an attestation is that of the valset *before* it, because those are the members
who sign it (`Attestation.threshold`); only the valset of the bootstrap nonce answers for itself.
-/

namespace Countersign

/-- **A commitment to the data roots of the blocks** from `beginBlock` on, before `endBlock`. The
root over them is not part of it, and must be asked for. -/
structure DataCommitment where
  nonce : UInt64
  beginBlock : UInt64
  endBlock : UInt64
deriving DecidableEq

/-- **The two kinds of attestations.** -/
inductive AttestationKind where
  | valset
  | dataCommitment
deriving DecidableEq

/-- **An attestation.** Its kind and nonce say which one it is. -/
inductive Attestation where
  | valset (value : Valset)
  | dataCommitment (value : DataCommitment)
deriving DecidableEq

/-- **Why something is no attestation**, or an attestation cannot be judged. -/
inductive AttestationError where
  | invalidBlockRange (first last : UInt64)
  | unknownKind (name : String)
  | missingPriorValset (nonce : UInt64)
deriving DecidableEq

/-- The error in words. -/
def AttestationError.message : AttestationError → String
  | .invalidBlockRange first last =>
    "invalid data commitment range: begin block " ++ toString first.toNat ++
      " is not before end block " ++ toString last.toNat
  | .unknownKind name => "unknown attestation type: " ++ name
  | .missingPriorValset nonce => "no preceding valset supplied for nonce " ++ toString nonce.toNat

/-- A data commitment over a range of blocks that is not empty. One that was read from a record need
not have been made like this. -/
def DataCommitment.make (nonce beginBlock endBlock : UInt64) :
    Except AttestationError DataCommitment :=
  if beginBlock < endBlock then .ok ⟨nonce, beginBlock, endBlock⟩
  else .error (.invalidBlockRange beginBlock endBlock)

namespace AttestationKind

/-- The name of a kind, as records and metrics write it. -/
def name : AttestationKind → String
  | .valset => "valset"
  | .dataCommitment => "data_commitment"

/-- The kind of a name. Names are compared as they are, without regard to spelling. -/
def ofName (text : String) : Except AttestationError AttestationKind :=
  if text = "valset" then .ok .valset
  else if text = "data_commitment" then .ok .dataCommitment
  else .error (.unknownKind text)

@[simp] theorem ofName_name (kind : AttestationKind) : ofName kind.name = .ok kind := by
  cases kind <;> rfl

end AttestationKind

namespace Attestation

/-- The nonce, by which attestations are ordered. -/
def nonce : Attestation → UInt64
  | .valset v => v.nonce
  | .dataCommitment c => c.nonce

/-- The kind, which decides where confirms are stored and what is signed. -/
def kind : Attestation → AttestationKind
  | .valset _ => .valset
  | .dataCommitment _ => .dataCommitment

/-- The power that a quorum for the attestation needs: a threshold of the valset before it, which
the caller has to bring. -/
def threshold (a : Attestation) (prior : Option Valset) : Except AttestationError UInt64 :=
  match a with
  | .valset v =>
    if v.nonce = bootstrapNonce then .ok v.threshold
    else match prior with
      | some p => .ok p.threshold
      | none => .error (.missingPriorValset v.nonce)
  | .dataCommitment c =>
    match prior with
    | some p => .ok p.threshold
    | none => .error (.missingPriorValset c.nonce)

end Attestation

end Countersign
