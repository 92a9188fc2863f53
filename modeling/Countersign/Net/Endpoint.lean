import Countersign.Bytes

/-!
# Which texts are addresses of endpoints

An endpoint is named by a URI: a scheme, an authority and a path, or an authority alone, or a path
alone. `Endpoint.isValid` tells whether a text is one. It is a test of form: whether anything
listens there is another matter.

The authority may have user information in front of an `@`, a host, which may stand in brackets, and
a port. Percent signs are allowed in the user information and in brackets only.
-/

namespace Countersign.Endpoint

/-- A letter or digit. -/
def isAlphanumeric (b : UInt8) : Bool :=
  (0x30 ≤ b && b ≤ 0x39) || (0x41 ≤ b && b ≤ 0x5a) || (0x61 ≤ b && b ≤ 0x7a)

/-- A byte of a scheme. -/
def isSchemeByte (b : UInt8) : Bool :=
  isAlphanumeric b || (Bytes.ofText "+-.").contains b

/-- A byte that may stand anywhere in an authority. -/
def isPlainByte (b : UInt8) : Bool :=
  isAlphanumeric b || (Bytes.ofText "!$&'()*+,-.;=_~").contains b

/-- What separates an authority from what follows. -/
def endsAuthority (b : UInt8) : Bool :=
  (Bytes.ofText "/?#").contains b

/-- **What was seen of an authority**: colons and a percent sign since the last bracket or `@`, the
brackets, and whether the last byte was an `@`. -/
structure Scan where
  colons : Nat
  opened : Bool
  closed : Bool
  percent : Bool
  atEnd : Bool

namespace Scan

/-- Nothing seen yet. -/
def start : Scan := ⟨0, false, false, false, false⟩

/-- One more byte, if it may stand there. At most eight colons stand in a row of groups. -/
def step (s : Scan) (b : UInt8) : Option Scan :=
  let s := { s with atEnd := false }
  if b == 0x3a then if 8 ≤ s.colons then none else some { s with colons := s.colons + 1 }
  else if b == 0x5b then if s.percent || s.opened then none else some { s with opened := true }
  else if b == 0x5d then
    if !s.opened || s.closed then none
    else some { s with closed := true, colons := 0, percent := false }
  else if b == 0x40 then some { s with colons := 0, percent := false, atEnd := true }
  else if b == 0x25 then some { s with percent := true }
  else if isPlainByte b then some s
  else none

/-- Whether an authority may end here. -/
def isComplete (s : Scan) : Bool :=
  s.opened == s.closed && s.colons ≤ 1 && !s.atEnd && !s.percent

end Scan

/-- Whether bytes form an authority. -/
def isAuthority (bytes : Bytes) : Bool :=
  match bytes.foldlM Scan.step .start with
  | some s => s.isComplete
  | none => false

/-- A byte of a path. -/
def isPathByte (b : UInt8) : Bool :=
  b == 0x21 || b == 0x22 || (0x24 ≤ b && b ≤ 0x3b) || b == 0x3d || (0x40 ≤ b && b ≤ 0x5f) ||
    (0x61 ≤ b && b ≤ 0x7e) || 0x7f ≤ b

/-- A byte of a query. -/
def isQueryByte (b : UInt8) : Bool :=
  b == 0x21 || (0x24 ≤ b && b ≤ 0x3b) || b == 0x3d || 0x3f ≤ b

/-- Whether bytes form a path, perhaps with a query. What stands behind a number sign is not looked
at. -/
def isPath (bytes : Bytes) : Bool :=
  let bytes := bytes.takeWhile (· != 0x23)
  let path := bytes.takeWhile (· != 0x3f)
  path.all isPathByte && (bytes.drop (path.length + 1)).all isQueryByte

/-- The number of bytes of a scheme, if the text begins with one and `://`. -/
def schemeLength? (bytes : Bytes) : Option Nat :=
  let scheme := bytes.takeWhile isSchemeByte
  if (Bytes.ofText "://").isPrefixOf (bytes.drop scheme.length) then some scheme.length else none

/-- The greatest number of bytes of a scheme. -/
def maxSchemeLength : Nat := 64

/-- The greatest number of bytes of a URI. -/
def maxLength : Nat := 65534

/-- Whether bytes form a URI. -/
def isUri (bytes : Bytes) : Bool :=
  if bytes.isEmpty || maxLength < bytes.length then false
  else if bytes == [0x2a] then true
  else if bytes.head? == some 0x2f then isPath bytes
  else
    match schemeLength? bytes with
    | none => isAuthority bytes
    | some n =>
      let rest := bytes.drop (n + 3)
      let authority := rest.takeWhile fun b => !endsAuthority b
      n ≤ maxSchemeLength && !authority.isEmpty && isAuthority authority &&
        isPath (rest.drop authority.length)

/-- Whether a text names an endpoint. -/
def isValid (text : String) : Bool :=
  isUri (Bytes.ofText text)

end Countersign.Endpoint
