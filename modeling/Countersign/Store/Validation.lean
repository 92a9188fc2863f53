import Countersign.Store.Key
import Countersign.Digest
import Countersign.Record.Decoding
import Countersign.Signature.Recovery

/-!
# Which records are accepted

A record is a key and a byte string. Whether it is accepted depends on the two alone
(`validate`), and so does the choice among several candidates for one key (`select`).

* A **confirm** is accepted if its key parses, its value decodes, key and value name the same
  signer, and as much of the signature holds as can be told without the attestation: for a data
  commitment all of it, because the confirm carries the root; for a valset only its form.
* The **latest valset** is accepted under its one key unless it stands for "nothing stored".

Of several candidates for a confirm the first accepted one is chosen; of several latest valsets the
one with the greatest nonce, the earlier of two equal ones.
-/

namespace Countersign

/-- **Why a record is refused.** The first fault that is found is told, and the order in which they
are looked for is that of `decodeConfirm`. -/
inductive ValidationError where
  | key (error : KeyError)
  | wrongNamespace (expected found : Namespace)
  | undecodable
  | addressMismatch (named signed : Address)
  | signature (error : SignatureError)
  | emptyValset
  | conflict (text : String)
  | noValidCandidate (text : String)
deriving DecidableEq

/-- The error in words. Addresses are shown with their checksum. -/
def ValidationError.message : ValidationError → String
  | .key e => e.message
  | .wrongNamespace expected found =>
    "expected a " ++ expected.name ++ " record, found " ++ found.name
  | .undecodable => "failed to decode record value"
  | .addressMismatch named signed =>
    "record key names " ++ named.checksummed ++ " but the value is signed by " ++
      signed.checksummed
  | .signature e => e.message
  | .emptyValset => "refusing to store the empty valset"
  | .conflict text => "a different record is already stored under " ++ text
  | .noValidCandidate text => "no valid candidate stored under " ++ text

/-- What can be told of a confirm's signature without its attestation. A commitment's confirm
carries its root and can be verified; of a valset's confirm only the form is known. -/
def Confirm.checkSignature (nonce : UInt64) : Confirm → Except SignatureError Unit
  | .valset c =>
    match Vrs.parse c.signature with
    | .ok _ => .ok ()
    | .error e => .error e
  | .commitment c => verifyText (commitmentDigest nonce c.commitment) c.signature c.signer

/-- **The rules for records**: those for the confirms of a kind of attestation, and those for the
latest valset. -/
inductive RecordRule where
  | confirm (kind : AttestationKind)
  | latestValset
deriving DecidableEq

/-- **An accepted confirm record**, its key and value read. What is accepted is the pair of the two:
the same value may be refused under another key. -/
def decodeConfirm (kind : AttestationKind) (key : String) (value : Bytes) :
    Except ValidationError (ConfirmKey × Confirm) :=
  match ConfirmKey.parse key with
  | .error e => .error (.key e)
  | .ok k =>
    if k.space ≠ Namespace.ofKind kind then
      .error (.wrongNamespace (Namespace.ofKind kind) k.space)
    else
      match Confirm.decode? kind value with
      | none => .error .undecodable
      | some confirm =>
        -- The signer is in the record as well, and must be the one whom the key names.
        if confirm.signer ≠ k.signer then .error (.addressMismatch k.signer confirm.signer)
        else
          match confirm.checkSignature k.nonce with
          | .error e => .error (.signature e)
          | .ok () => .ok (k, confirm)

/-- An accepted latest valset. It stands under its one key and is for more than nothing; nobody has
signed it. -/
def decodeLatestValset (key : String) (value : Bytes) : Except ValidationError Valset :=
  match Namespace.ofKey key with
  | .error e => .error (.key e)
  | .ok space =>
    if space ≠ .latestValset then .error (.wrongNamespace .latestValset space)
    else if key ≠ latestValsetKey then .error (.key (.malformed key))
    else
      match Valset.decode? value with
      | none => .error .undecodable
      | some v => if v.isEmpty then .error .emptyValset else .ok v

namespace RecordRule

/-- Whether a record is accepted, and if not, for which reason. -/
def validate (rule : RecordRule) (key : String) (value : Bytes) : Except ValidationError Unit :=
  match rule with
  | .confirm kind =>
    match decodeConfirm kind key value with
    | .ok _ => .ok ()
    | .error e => .error e
  | .latestValset =>
    match decodeLatestValset key value with
    | .ok _ => .ok ()
    | .error e => .error e

/-- Whether a candidate is accepted, as a truth value. -/
def accepts (rule : RecordRule) (key : String) (value : Bytes) : Bool :=
  match rule.validate key value with
  | .ok () => true
  | .error _ => false

/-- The place of the candidate of greatest nonce, the earlier of two equal ones, `place` being the
place of the first one here and `best` the best one before. -/
def greatestNonce (key : String) : (place : Nat) → (best : Option (Nat × UInt64)) → List Bytes →
    Option (Nat × UInt64)
  | _, best, [] => best
  | place, best, value :: rest =>
    match decodeLatestValset key value with
    | .error _ => greatestNonce key (place + 1) best rest
    | .ok v =>
      match best with
      | some (p, nonce) =>
        greatestNonce key (place + 1)
          (if v.nonce ≤ nonce then some (p, nonce) else some (place, v.nonce)) rest
      | none => greatestNonce key (place + 1) (some (place, v.nonce)) rest

/-- The place of the chosen candidate. Only accepted candidates are considered, whatever stands in
front of them. -/
def select (rule : RecordRule) (key : String) (values : List Bytes) : Except ValidationError Nat :=
  match rule with
  | .confirm kind =>
    match values.findIdx? ((RecordRule.confirm kind).accepts key) with
    | some place => .ok place
    | none => .error (.noValidCandidate key)
  | .latestValset =>
    match greatestNonce key 0 none values with
    | some (place, _) => .ok place
    | none => .error (.noValidCandidate key)

/-- The rules for a namespace: each has its own. -/
def ofNamespace : Namespace → RecordRule
  | .valsetConfirm => .confirm .valset
  | .commitmentConfirm => .confirm .dataCommitment
  | .latestValset => .latestValset

end RecordRule

/-- The rules for a key, by the namespace that it names. The rest of the key is left to the
rules. -/
def ruleOfKey (key : String) : Except ValidationError RecordRule :=
  match Namespace.ofKey key with
  | .ok space => .ok (.ofNamespace space)
  | .error e => .error (.key e)

/-- Whether a record is accepted, by the rules for its key. -/
def validate (key : String) (value : Bytes) : Except ValidationError Unit :=
  match ruleOfKey key with
  | .ok rule => rule.validate key value
  | .error e => .error e

/-- The place of the chosen candidate, by the rules for the key. -/
def select (key : String) (values : List Bytes) : Except ValidationError Nat :=
  match ruleOfKey key with
  | .ok rule => rule.select key values
  | .error e => .error e

end Countersign
