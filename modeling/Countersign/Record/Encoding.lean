import Countersign.Confirm
import Countersign.Json.Printer

/-!
# How records are written

The JSON layouts of everything that is stored or shown: compact, fields in a fixed order, addresses
and words in lower-case hexadecimal, times as text. An attestation puts its kind in front of its
fields.

Writing a valset fails if its time has no text, that is, if its year is not within 0 to 9999.
-/

namespace Countersign

/-- The record of a member. A power is written as a number, without quotes. -/
def Member.toJson (m : Member) : Json :=
  .ofMembers [("power", .ofUInt64 m.power), ("evm_address", .ofString m.address.render)]

/-- The fields of a valset, if its time has a text. -/
def Valset.fields? (v : Valset) : Option (List (String × Json)) :=
  v.time.write?.map fun time =>
    [("nonce", .ofUInt64 v.nonce), ("members", .ofList (v.members.map Member.toJson)),
     ("height", .ofUInt64 v.height), ("time", .ofString (String.ofList time))]

/-- The record of a valset, in the form in which the latest one is stored. -/
def Valset.toJson? (v : Valset) : Option Json :=
  v.fields?.map .ofMembers

/-- The fields of a data commitment. -/
def DataCommitment.fields (c : DataCommitment) : List (String × Json) :=
  [("nonce", .ofUInt64 c.nonce), ("begin_block", .ofUInt64 c.beginBlock),
   ("end_block", .ofUInt64 c.endBlock)]

/-- The record of a data commitment. -/
def DataCommitment.toJson (c : DataCommitment) : Json :=
  .ofMembers c.fields

/-- The record of an attestation: its kind, and then its fields beside it. -/
def Attestation.toJson? (a : Attestation) : Option Json :=
  let tag : String × Json := ("type", .ofString a.kind.name)
  match a with
  | .valset v => v.fields?.map fun fields => .ofMembers (tag :: fields)
  | .dataCommitment c => some (.ofMembers (tag :: c.fields))

/-- The record of a valset confirm: the signer, and the text of the signature. What was signed is
not in it. -/
def ValsetConfirm.toJson (c : ValsetConfirm) : Json :=
  .ofMembers [("EthAddress", .ofString c.signer.render), ("Signature", .ofString c.signature)]

/-- The record of a commitment confirm. -/
def CommitmentConfirm.toJson (c : CommitmentConfirm) : Json :=
  .ofMembers [("Signature", .ofString c.signature), ("EthAddress", .ofString c.signer.render),
    ("Commitment", .ofString c.commitment.render)]

/-- The record of a confirm, which does not say of which kind it is. -/
def Confirm.toJson : Confirm → Json
  | .valset c => c.toJson
  | .commitment c => c.toJson

/-- A record's text. -/
def Valset.encode? (v : Valset) : Option String :=
  v.toJson?.map Json.render

/-- A record's text. -/
def Attestation.encode? (a : Attestation) : Option String :=
  a.toJson?.map Json.render

/-- A record's text. Every confirm has one. -/
def Confirm.encode (c : Confirm) : String :=
  c.toJson.render

end Countersign
