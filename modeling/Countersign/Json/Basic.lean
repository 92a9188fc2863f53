import Countersign.Bytes

/-!
# JSON texts as trees

A `Json` is what a text holds as far as it can be read. Where the text breaks off or goes wrong the
tree has a `broken` node, or an array or object that is not `closed`; so a tree also tells *where*
the fault lies, in the order of the text, and everything before it can still be looked at.

Two things are kept as they were written, because their readers differ:

* a **number** keeps its sign, digits, fraction and exponent (`Number`): a count must be written
  without any of the last three (`Number.toUInt64?`), while a value that is merely kept must not be
  beyond all floating-point numbers (`Number.isFinite`);
* a **string** may spell no Unicode text at all (half of a surrogate pair, invalid UTF-8). Such a
  string can be passed over, but not read.
-/

namespace Countersign

/-! ### Numbers -/

/-- **A number as written.** The digits of each part, the most significant first. No value is worked
out until somebody asks for it. -/
structure Number where
  negative : Bool
  whole : List Nat
  fraction : Option (List Nat)
  exponent : Option (Bool × List Nat)
deriving DecidableEq, Repr

namespace Number

/-- The number that decimal digits spell. -/
def ofDigits (digits : List Nat) : Nat :=
  digits.foldl (fun n d => 10 * n + d) 0

/-- A count: no sign, no fraction, no exponent, and below `2 ^ 64`. So `1.0` and `1e0` are no
counts. -/
def toUInt64? (n : Number) : Option UInt64 :=
  if n.negative || n.fraction.isSome || n.exponent.isSome then none
  else
    let value := ofDigits n.whole
    if value < UInt64.size then some (UInt64.ofNat value) else none

/-- The least number that rounds beyond every floating-point number of 64 bits. -/
def beyondFloat : Nat := (1 <<< 1024) - (1 <<< 970)

/-- **Whether the number is within the floating-point range.** Numbers with far more or far fewer
than 308 digits before the point are told apart by that count alone. -/
def isFinite (n : Number) : Bool :=
  let digits := n.whole ++ n.fraction.getD []
  let significant := digits.dropWhile (· == 0)
  if significant.isEmpty then true
  else
    let shift : Int := match n.exponent with
      | none => 0
      | some (true, e) => - (ofDigits e : Int)
      | some (false, e) => ofDigits e
    let scale := shift - (n.fraction.getD []).length
    -- The number of digits in front of the point, once the exponent is taken into account.
    let magnitude := (significant.length : Int) + scale
    if magnitude < 300 then true
    else if 320 < magnitude then false
    else if scale < 0 then decide (ofDigits significant < beyondFloat * Nat.pow 10 scale.natAbs)
    else decide (ofDigits significant * Nat.pow 10 scale.natAbs < beyondFloat)

/-- A count as a number, in its shortest writing. -/
def ofNat (n : Nat) : Number :=
  ⟨false, (Nat.toDigits 10 n).map fun c => c.toNat - 48, none, none⟩

end Number

/-! ### Trees -/

/-- **A text as a tree**, with the places where it broke off. -/
inductive Json where
  | null
  | bool (value : Bool)
  | number (value : Number)
  | string (value : Option String)
  | array (elements : List Json) (closed : Bool)
  | object (members : List (String × Json)) (closed : Bool)
  | broken

namespace Json

/-- A readable string. -/
def ofString (text : String) : Json := .string (some text)

/-- A count. -/
def ofUInt64 (n : UInt64) : Json := .number (.ofNat n.toNat)

/-- A count without a bound. -/
def ofNat (n : Nat) : Json := .number (.ofNat n)

/-- A list, closed. -/
def ofList (elements : List Json) : Json := .array elements true

/-- Members in order, closed. Nothing is said about names that occur twice. -/
def ofMembers (members : List (String × Json)) : Json := .object members true

mutual

/-- Whether a value can be kept for later: every string spells text, every number is in range, and
containers are nested at most `depth` deep. -/
def isKeepable (depth : Nat) : Json → Bool
  | .number n => n.isFinite
  | .string s => s.isSome
  | .array elements _ => match depth with
    | 0 => false
    | depth + 1 => allKeepable depth elements
  | .object members _ => match depth with
    | 0 => false
    | depth + 1 => membersKeepable depth members
  | .broken => false
  | _ => true

/-- All elements keepable. -/
def allKeepable (depth : Nat) : List Json → Bool
  | [] => true
  | j :: rest => isKeepable depth j && allKeepable depth rest

/-- All members' values keepable. -/
def membersKeepable (depth : Nat) : List (String × Json) → Bool
  | [] => true
  | (_, j) :: rest => isKeepable depth j && membersKeepable depth rest

end

end Json

end Countersign
