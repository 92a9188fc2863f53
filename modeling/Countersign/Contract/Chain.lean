import Countersign.Abi.Bridge
import Countersign.Contract.Submission
import Countersign.Digest
import Countersign.Record.Decoding

/-!
# The contract on its chain

How a submission and a question reach the contract. A submission becomes a transaction that calls
the contract (`Submission.bridgeCall`); once it was sent, the chain is asked for its receipt again
and again until there is one or the time is over (`Chain.awaitReceipt`). The receipt says whether
the contract took it, and by which transaction. The last nonce is a number of 256 bits that the
contract keeps; one that is no nonce makes no sense.
-/

namespace Countersign

/-- The call of the contract that commits an attestation. Of the valset that signed it hands over
the members, which the contract compares with the hash that it keeps. -/
def Submission.bridgeCall : Submission → BridgeCall
  | .valset new threshold current signatures =>
    .updateValidatorSet new.nonce current.nonce threshold new.membersHash current signatures
  | .dataRoot nonce root current signatures =>
    .submitDataRoot nonce current.nonce root current signatures

namespace Chain

/-- **Something asked of the chain**: reading from the contract, or a transaction. Only the second
changes anything. -/
inductive Question where
  | read (input : Bytes)
  | transact (input : Bytes)
deriving DecidableEq

namespace Question

/-- The name of the method by which a node is asked. -/
def method : Question → String
  | .read _ => "eth_call"
  | .transact _ => "eth_sendTransaction"

/-- What is handed to the contract, in either case the bytes of a call. -/
def input : Question → Bytes
  | .read input => input
  | .transact input => input

/-- Asking for the last nonce that the contract took. -/
def lastNonce : Question := .read BridgeCall.eventNonce.calldata

/-- Handing in a submission, as a transaction. -/
def ofSubmission (s : Submission) : Question := .transact s.bridgeCall.calldata

end Question

/-- What the chain replies: a value, or nothing that helps. Why a reply does not help is not told
further. -/
inductive Reply where
  | result (value : Json)
  | failure

/-- Any number of bytes, as hexadecimal text or as a list of numbers. -/
def readBytes? : Json → Option Bytes
  | .string (some text) =>
    match Hex.decode (Hex.stripAnyPrefix (Bytes.ofText text)) with
    | .ok bytes => some bytes
    | .error _ => none
  -- The other form of bytes, as the layouts of records allow it as well.
  | .array elements true => elements.mapM Json.byte?
  | _ => none

/-- The last nonce from a reply, whose first 32 bytes count. The contract could hold a greater
number, which is then an error. -/
def readNonce : Reply → Except SubmitterError UInt64
  | .failure => .error .rpc
  | .result value =>
    match (readBytes? value).bind fun bytes => Abi.wordAt? bytes 0 with
    | none => .error .rpc
    | some word =>
      if word.toNat < UInt64.size then .ok (UInt64.ofNat word.toNat)
      else .error (.contract ("event nonce " ++ toString word.toNat ++ " exceeds u64"))

/-- The transaction that a reply names, by its hash. -/
def readTransaction : Reply → Except SubmitterError Word
  | .failure => .error .rpc
  | .result value =>
    match Word.ofJson? .inPlace value with
    | some transaction => .ok transaction
    | none => .error .rpc

/-- **What a receipt says**: whether the contract took the transaction, and which one it is. -/
structure Receipt where
  succeeded : Bool
  transaction : Word
deriving DecidableEq

/-- **What the chain replies when asked for a receipt.** There is none until the transaction is in a
block. -/
inductive ReceiptReply where
  | absent
  | found (receipt : Receipt)
  | failure
deriving DecidableEq

/-- The first of some replies that is not absent, given the number of the next one. -/
def firstReply (replies : Nat → ReceiptReply) : (count next : Nat) → ReceiptReply
  | 0, _ => .absent
  | count + 1, next =>
    match replies next with
    | .absent => firstReply replies count (next + 1)
    | reply => reply

/-- The number of times that a receipt is asked for within a limit, one for each interval that has
begun. -/
def attempts (interval limit : Nat) : Nat :=
  (limit + interval - 1) / interval

/-- Waiting for the receipt of a transaction, with the replies by their numbers. -/
def awaitReceipt (interval limit : Nat) (replies : Nat → ReceiptReply) :
    Except SubmitterError Receipt :=
  match firstReply replies (attempts interval limit) 0 with
  | .absent => .error (.receiptTimeout limit)
  | .found receipt => .ok receipt
  | .failure => .error .rpc

/-- What became of a transaction. One that was undone is told by the hash under which it was
sent. -/
def settle (transaction : Word) (receipt : Receipt) : Except SubmitterError Word :=
  if receipt.succeeded then .ok receipt.transaction else .error (.reverted transaction)

/-- Handing in a transaction and waiting for its end. -/
def transact (interval limit : Nat) (sent : Reply) (replies : Nat → ReceiptReply) :
    Except SubmitterError Word := do
  let transaction ← readTransaction sent
  let receipt ← awaitReceipt interval limit replies
  settle transaction receipt

end Chain

end Countersign
