import Countersign.Abi.Bridge
import Countersign.Attestation

/-!
# What is signed

The digests that validators sign and the contract recomputes. Each is the hash of a byte string, its
*payload*, which stands apart from the hash so that its content can be told: the argument bytes of a
call that begins with a word naming the kind of attestation.

* `Valset.membersPayload`: the table of members.
* `Valset.payload`: kind, nonce, threshold, hash of the members.
* `commitmentPayload`: kind, nonce, data root.
-/

namespace Countersign

/-- The word that begins the payload of a valset: `checkpoint`, with zeros behind. -/
def valsetDomain : Word :=
  .ofBytes (Bytes.padRight 32 (Bytes.ofText "checkpoint"))

/-- The word that begins the payload of a data root: `transactionBatch`, with zeros behind. -/
def commitmentDomain : Word :=
  .ofBytes (Bytes.padRight 32 (Bytes.ofText "transactionBatch"))

/-- A hash as a word, in which form the contract handles it. -/
def hashWord (payload : Bytes) : Word :=
  .ofBytes (Keccak.hash payload)

/-- The byte string behind the hash of a valset's members. -/
def Valset.membersPayload (v : Valset) : Bytes :=
  (BridgeCall.validatorSetHash v).payload

/-- The hash of a valset's members, which is all that the contract keeps of them. -/
def Valset.membersHash (v : Valset) : Word :=
  hashWord v.membersPayload

/-- The byte string behind a valset's digest. -/
def Valset.payload (v : Valset) : Bytes :=
  (BridgeCall.valsetPayload valsetDomain v.nonce v.threshold v.membersHash).payload

/-- The digest that is signed for a valset. Height and time do not go into it. -/
def Valset.digest (v : Valset) : Word :=
  hashWord v.payload

/-- The byte string behind the digest of a data root. -/
def commitmentPayload (nonce : UInt64) (root : Word) : Bytes :=
  (BridgeCall.commitmentPayload commitmentDomain nonce root).payload

/-- The digest that is signed for the data root of the commitment at a nonce. The range of blocks
does not go into it; the root stands for it. -/
def commitmentDigest (nonce : UInt64) (root : Word) : Word :=
  hashWord (commitmentPayload nonce root)

end Countersign
