import Countersign.Json.Reader

/-!
# Looking into values

What the readers of records need from a tree: the fields of a structure by name, counts, texts, and
runs of bytes. A structure is an object in which every field occurs once, in any order and among
other members, or an array of exactly its fields in order (`Json.fields?`).
-/

namespace Countersign.Json

/-- The value of the only member of a name. A name that occurs twice has none. -/
def only? (name : String) (members : List (String × Json)) : Option Json :=
  match members.filter (·.1 == name) with
  | [(_, value)] => some value
  | _ => none

/-- The fields of a structure, in the order of `names`. Members of other names are passed over. -/
def fields? (names : List String) : Json → Option (List Json)
  | .object members true => names.mapM fun name => only? name members
  | .array elements true => if elements.length = names.length then some elements else none
  | _ => none

/-- A count of 64 bits. -/
def uint64? : Json → Option UInt64
  | .number n => n.toUInt64?
  | _ => none

/-- A text, if the string spells one. -/
def text? : Json → Option String
  | .string text => text
  | _ => none

/-- A count below 256. -/
def byte? (j : Json) : Option UInt8 :=
  match uint64? j with
  | some n => if n.toNat < 256 then some (UInt8.ofNat n.toNat) else none
  | none => none

/-- The elements of a list, if it is closed. -/
def elements? : Json → Option (List Json)
  | .array elements true => some elements
  | _ => none

/-- Whether a value has parts. -/
def isContainer : Json → Bool
  | .array _ _ | .object _ _ => true
  | _ => false

end Countersign.Json
