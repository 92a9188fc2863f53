import Countersign.Attestation
import Countersign.Text.Quoted

/-!
# Record keys

Every record of the store has a key that starts with a slash and the name of a namespace:

* confirms of valsets and of data commitments live under
  `/<namespace>/<nonce>:0x<signer>`, nonce and signer in lower-case hexadecimal (`ConfirmKey`);
* the latest valset lives under the one key `latestValsetKey`.

`ConfirmKey.render` writes the one form above. `ConfirmKey.parse` also takes upper-case digits,
leading zeros and one plus sign in front of a nonce, and a second `0x` or `0X` in front of a signer,
so several texts can name the same confirm.
-/

namespace Countersign

/-- **The kinds of records**, of which each has a place of its own among the keys. -/
inductive Namespace where
  | valsetConfirm
  | commitmentConfirm
  | latestValset
deriving DecidableEq

/-- **Why a text is no record key.** The text that is shown is the key or the part of it that is at
fault. -/
inductive KeyError where
  | malformed (key : String)
  | emptyNamespace (key : String)
  | emptyAddress (key : String)
  | unknownNamespace (name : String)
  | invalidNonce (text : String)
  | invalidAddress (text : String)
deriving DecidableEq

/-- The error in words, with the text in quotes. -/
def KeyError.message : KeyError → String
  | .malformed key => "malformed record key " ++ Text.quote key
  | .emptyNamespace key => "record key " ++ Text.quote key ++ " has an empty namespace"
  | .emptyAddress key => "record key " ++ Text.quote key ++ " has an empty address"
  | .unknownNamespace name => "unknown namespace " ++ Text.quote name
  | .invalidNonce text => "invalid nonce " ++ Text.quote text ++ " in record key"
  | .invalidAddress text => "invalid address " ++ Text.quote text ++ " in record key"

/-- The key of the latest valset, of which there is only one. -/
def latestValsetKey : String := "/lv/latest"

/-- The pieces of a text between separators; one more than there are separators. -/
def segments (separator : Char) : List Char → List (List Char)
  | [] => [[]]
  | c :: rest =>
    if c = separator then [] :: segments separator rest
    else
      match segments separator rest with
      | [] => [[c]]
      | piece :: pieces => (c :: piece) :: pieces

namespace Namespace

/-- The name in keys. -/
def name : Namespace → String
  | .valsetConfirm => "vc"
  | .commitmentConfirm => "dcc"
  | .latestValset => "lv"

/-- Whether records are confirms, which never change once they are stored. -/
def isConfirm : Namespace → Bool
  | .valsetConfirm | .commitmentConfirm => true
  | .latestValset => false

/-- The namespace of the confirms for a kind of attestation. -/
def ofKind : AttestationKind → Namespace
  | .valset => .valsetConfirm
  | .dataCommitment => .commitmentConfirm

/-- The namespace of a name. -/
def parse (text : List Char) : Except KeyError Namespace :=
  if text = ['v', 'c'] then .ok .valsetConfirm
  else if text = ['d', 'c', 'c'] then .ok .commitmentConfirm
  else if text = ['l', 'v'] then .ok .latestValset
  else .error (.unknownNamespace (String.ofList text))

/-- The namespace of any key: the piece behind the leading slash. Of the rest of the key nothing is
asked. -/
def ofKey (key : String) : Except KeyError Namespace :=
  match segments '/' key.toList with
  | [] :: [] :: _ => .error (.emptyNamespace key)
  | [] :: namespaceText :: _ => parse namespaceText
  | _ => .error (.malformed key)

end Namespace

/-- **The key of one confirm**: for what, and of whom. The namespace says of which kind the
attestation is. -/
structure ConfirmKey where
  space : Namespace
  nonce : UInt64
  signer : Address
deriving DecidableEq

namespace ConfirmKey

/-- The text of a key: lower case, no zeros in front of the nonce. -/
def render (key : ConfirmKey) : String :=
  "/" ++ key.space.name ++ "/" ++ String.ofList (Nat.toDigits 16 key.nonce.toNat) ++ ":" ++
    key.signer.render

/-- The value of a hexadecimal digit, in either case. -/
def digitValue? (c : Char) : Option Nat :=
  let n := c.toNat
  if 48 ≤ n ∧ n ≤ 57 then some (n - 48)
  else if 97 ≤ n ∧ n ≤ 102 then some (n - 87)
  else if 65 ≤ n ∧ n ≤ 70 then some (n - 55)
  else none

/-- The number that hexadecimal digits spell, onto the digits read before. Any other character makes
it none. -/
def readDigits (acc : Nat) : List Char → Option Nat
  | [] => some acc
  | c :: rest =>
    match digitValue? c with
    | some d => readDigits (16 * acc + d) rest
    | none => none

/-- A nonce: at least one hexadecimal digit behind an optional plus sign, below `2 ^ 64`. -/
def parseNonce? (text : List Char) : Option UInt64 :=
  let digits := match text with
    | '+' :: rest => rest
    | _ => text
  if digits.isEmpty then none
  else
    match readDigits 0 digits with
    | some n => if n < UInt64.size then some (UInt64.ofNat n) else none
    | none => none

/-- A signer: an address behind `0x`. The address is read by its own reader, which may take off a
prefix as well. -/
def parseSigner? (text : List Char) : Option Address :=
  match text with
  | '0' :: 'x' :: digits =>
    match Address.parse (Bytes.ofText (String.ofList digits)) with
    | .ok address => some address
    | .error _ => none
  | _ => none

/-- **The key of a confirm from its text.** The faults come in this order: the number of slashes, an
empty namespace, the number of colons, an empty signer, the namespace, the nonce, the signer. -/
def parse (key : String) : Except KeyError ConfirmKey :=
  match segments '/' key.toList with
  | [[], namespaceText, id] =>
    if namespaceText.isEmpty then .error (.emptyNamespace key)
    else
      match segments ':' id with
      | [nonceText, signerText] =>
        if signerText.isEmpty then .error (.emptyAddress key)
        else
          match Namespace.parse namespaceText with
          | .error e => .error e
          | .ok space =>
            -- A key of the latest valset names no confirm.
            if !space.isConfirm then .error (.malformed key)
            else
              match parseNonce? nonceText with
              | none => .error (.invalidNonce (String.ofList nonceText))
              | some nonce =>
                match parseSigner? signerText with
                | none => .error (.invalidAddress (String.ofList signerText))
                | some signer => .ok ⟨space, nonce, signer⟩
      | _ => .error (.malformed key)
  | _ => .error (.malformed key)

end ConfirmKey

end Countersign
