import Countersign.Confirm
import Countersign.Signature.Recovery

/-!
# Signatures by place

The contract takes one signature for each member of its valset, by place. `orderSignatures` lines
confirms up with the members: each place holds the first confirm of its member, taken apart, or
`Vrs.zero` if there is none. Confirms of others are passed over, whatever they hold.
-/

namespace Countersign

/-- The signature for a member's place. Only the first confirm of the member is looked at, also if
it cannot be taken apart. -/
def slotOf (confirms : List Confirm) (member : Member) : Except SignatureError Vrs :=
  match confirms.find? (·.signer == member.address) with
  | none => .ok Vrs.zero
  | some confirm => Vrs.parse confirm.signature

/-- The signatures for all places, in the order of the members. One that cannot be taken apart makes
all of it fail. -/
def orderSignatures (current : Valset) (confirms : List Confirm) :
    Except SignatureError (List Vrs) :=
  current.members.mapM (slotOf confirms)

end Countersign
