import Countersign.Source.Error
import Countersign.Text.Hex

/-!
# Attestations as messages

The form in which a node of the source chain sends attestations. A message says less about itself
than an attestation: addresses are texts, a time is any number of seconds, members may repeat, a
range may be empty, and there may be no attestation in it at all. `Message.Attestation.read` tells
what a message means, if it means anything; `Message.Attestation.ofAttestation` writes one.
-/

namespace Countersign.Message

/-- **A member as a message**, its address in any spelling. -/
structure Member where
  power : UInt64
  address : String
deriving DecidableEq

/-- **A valset as a message**, its time in seconds and its members as they are listed. -/
structure Valset where
  nonce : UInt64
  members : List Member
  height : UInt64
  time : Int
deriving DecidableEq

/-- **An attestation as a message**, perhaps of no kind, since the format does not ask for one. -/
inductive Attestation where
  | valset (v : Valset)
  | dataCommitment (nonce beginBlock endBlock : UInt64)
  | unset
deriving DecidableEq

/-! ### Reading -/

/-- The member that a message means, if its address is one. -/
def Member.read (m : Member) : Except SourceError Countersign.Member :=
  match Address.parse (Bytes.ofText m.address) with
  | .ok address => .ok ⟨m.power, address⟩
  | .error fault =>
    .error (.malformed ("evm address " ++ Text.quote m.address ++ ": " ++ fault.message))

/-- The valset that a message means. Its time is looked at before its members, and of several
members with one address the first counts. -/
def Valset.read (v : Valset) : Except SourceError Countersign.Valset :=
  match Timestamp.ofUnixSeconds? v.time with
  | none =>
    .error (.malformed ("valset time " ++ toString v.time ++ ": timestamp was not in range"))
  | some time =>
    match v.members.mapM Member.read with
    | .error e => .error e
    | .ok members => .ok (.make v.nonce members v.height time)

/-- The attestation that a message means. What is read is well-formed: repetitions are left out, and
an empty range is refused. -/
def Attestation.read : Attestation → Except SourceError Countersign.Attestation
  | .valset v =>
    match v.read with
    | .ok v => .ok (.valset v)
    | .error e => .error e
  | .dataCommitment nonce beginBlock endBlock =>
    match DataCommitment.make nonce beginBlock endBlock with
    | .ok c => .ok (.dataCommitment c)
    | .error e => .error (.attestation e)
  | .unset => .error (.attestation (.unknownKind "unset"))

/-- The data root that bytes spell, which must be a whole word. -/
def readRoot (bytes : Bytes) : Except SourceError Word :=
  if bytes.length = 32 then .ok (.ofBytes bytes)
  else
    .error (.malformed ("data root tuple root must be 32 bytes, got " ++ toString bytes.length))

/-! ### Writing -/

/-- The message for a member, its address checksummed, as a node writes it. -/
def Member.ofMember (m : Countersign.Member) : Member :=
  ⟨m.power, m.address.checksummed⟩

/-- The message for a valset. Fractions of a second are lost. -/
def Valset.ofValset (v : Countersign.Valset) : Valset :=
  ⟨v.nonce, v.members.map Member.ofMember, v.height, v.time.unixSeconds⟩

/-- The message for an attestation, of its kind. -/
def Attestation.ofAttestation : Countersign.Attestation → Attestation
  | .valset v => .valset (.ofValset v)
  | .dataCommitment c => .dataCommitment c.nonce c.beginBlock c.endBlock

end Countersign.Message
