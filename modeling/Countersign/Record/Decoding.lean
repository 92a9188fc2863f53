import Countersign.Confirm
import Countersign.Json.Fields

/-!
# How records are read

The readers for the layouts of `Countersign.Record.Encoding`. They take more than is written: fields
in any order and among others, structures as plain lists, hexadecimal in any case and without its
prefix, addresses and words as lists of bytes. They take a text only as a whole.

A field's value may be looked at right where it stands in the text, or after it was first kept
aside, as for the fields of an attestation, whose kind may come behind them (`Reading`). The two
differ in what they pass over behind a full list of bytes.
-/

namespace Countersign

/-- **Whether a value is read where it stands or was kept aside first.** The two readers differ in a
few texts that nobody writes. -/
inductive Reading where
  | inPlace
  | kept
deriving DecidableEq

/-- Exactly `count` bytes from a list of numbers. One more element is passed over if it is no byte;
read in place, it must also have no parts, and nothing may follow. -/
def Reading.bytes? (reading : Reading) (count : Nat) (elements : List Json) : Option Bytes :=
  let surplus := elements.drop count
  let passed : Bool := match surplus with
    | [] => true
    | [extra] => extra.byte?.isNone && (reading == .kept || !extra.isContainer)
    | _ => false
  if passed ∧ count ≤ elements.length then (elements.take count).mapM Json.byte? else none

/-- Fixed-width bytes, as hexadecimal text or as a list of numbers. -/
def Reading.fixed? (reading : Reading) (count : Nat) : Json → Option Bytes
  | .string (some text) =>
    match Hex.decodeExactly count (Hex.stripAnyPrefix (Bytes.ofText text)) with
    | .ok bytes => some bytes
    | .error _ => none
  | .array elements true => reading.bytes? count elements
  | _ => none

/-- An address, as text or as a list of 20 bytes. -/
def Address.ofJson? (reading : Reading) (j : Json) : Option Address :=
  (reading.fixed? 20 j).map Address.ofBytes

/-- A word, as text or as a list of 32 bytes. -/
def Word.ofJson? (reading : Reading) (j : Json) : Option Word :=
  (reading.fixed? 32 j).map Word.ofBytes

/-- A moment, as text. -/
def Timestamp.ofJson? (j : Json) : Option Timestamp :=
  j.text?.bind fun text => Timestamp.parse? (Bytes.ofText text)

/-- A member, its fields in any order. -/
def Member.ofJson? (reading : Reading) (j : Json) : Option Member :=
  match j.fields? ["power", "evm_address"] with
  | some [power, address] => do
    let power ← power.uint64?
    let address ← Address.ofJson? reading address
    some ⟨power, address⟩
  | _ => none

/-- A valset, its members as they stand: none is left out, also not one whose address was there
before. -/
def Valset.ofJson? (reading : Reading) (j : Json) : Option Valset :=
  match j.fields? ["nonce", "members", "height", "time"] with
  | some [nonce, members, height, time] => do
    let nonce ← nonce.uint64?
    let members ← members.elements?
    let members ← members.mapM (Member.ofJson? reading)
    let height ← height.uint64?
    let time ← Timestamp.ofJson? time
    some ⟨nonce, members, height, time⟩
  | _ => none

/-- A data commitment, its range as it stands, be it empty or not. -/
def DataCommitment.ofJson? (j : Json) : Option DataCommitment :=
  match j.fields? ["nonce", "begin_block", "end_block"] with
  | some [nonce, first, last] => do
    let nonce ← nonce.uint64?
    let first ← first.uint64?
    let last ← last.uint64?
    some ⟨nonce, first, last⟩
  | _ => none

/-- The kind of an attestation and its fields, kept aside: those of an object without its `type`, or
those of a list behind its first element. Containers nest at most 127 deep altogether. -/
def Attestation.split? : Json → Option (String × Json)
  | .object members true => do
    let tag ← Json.only? "type" members
    let name ← tag.text?
    let others := members.filter (·.1 != "type")
    if Json.membersKeepable 126 others then some (name, .object others true) else none
  | .array (tag :: others) true => do
    let name ← tag.text?
    if Json.allKeepable 126 others then some (name, .array others true) else none
  | _ => none

/-- An attestation, of the kind that its record names. -/
def Attestation.ofJson? (j : Json) : Option Attestation :=
  match Attestation.split? j with
  | none => none
  | some (name, fields) =>
    match AttestationKind.ofName name with
    | .ok .valset => (Valset.ofJson? .kept fields).map .valset
    | .ok .dataCommitment => (DataCommitment.ofJson? fields).map .dataCommitment
    | .error _ => none

/-- A valset confirm. The text of its signature is taken as it is. -/
def ValsetConfirm.ofJson? (j : Json) : Option ValsetConfirm :=
  match j.fields? ["EthAddress", "Signature"] with
  | some [signer, signature] => do
    let signer ← Address.ofJson? .inPlace signer
    let signature ← signature.text?
    some ⟨signer, signature⟩
  | _ => none

/-- A commitment confirm. The text of its signature is taken as it is. -/
def CommitmentConfirm.ofJson? (j : Json) : Option CommitmentConfirm :=
  match j.fields? ["Signature", "EthAddress", "Commitment"] with
  | some [signature, signer, commitment] => do
    let signature ← signature.text?
    let signer ← Address.ofJson? .inPlace signer
    let commitment ← Word.ofJson? .inPlace commitment
    some ⟨signature, signer, commitment⟩
  | _ => none

/-- A confirm of the given kind, which the record does not name. -/
def Confirm.ofJson? : AttestationKind → Json → Option Confirm
  | .valset, j => (ValsetConfirm.ofJson? j).map .valset
  | .dataCommitment, j => (CommitmentConfirm.ofJson? j).map .commitment

/-- The valset that a text holds. The text must hold nothing else. -/
def Valset.decode? (bytes : Bytes) : Option Valset :=
  (Json.parse? bytes).bind (Valset.ofJson? .inPlace)

/-- The member that a text holds. -/
def Member.decode? (bytes : Bytes) : Option Member :=
  (Json.parse? bytes).bind (Member.ofJson? .inPlace)

/-- The data commitment that a text holds. -/
def DataCommitment.decode? (bytes : Bytes) : Option DataCommitment :=
  (Json.parse? bytes).bind DataCommitment.ofJson?

/-- The attestation that a text holds. -/
def Attestation.decode? (bytes : Bytes) : Option Attestation :=
  (Json.parse? bytes).bind Attestation.ofJson?

/-- The confirm of the given kind that a text holds. -/
def Confirm.decode? (kind : AttestationKind) (bytes : Bytes) : Option Confirm :=
  (Json.parse? bytes).bind (Confirm.ofJson? kind)

end Countersign
