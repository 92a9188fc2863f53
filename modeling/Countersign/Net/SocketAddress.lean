/-!
# Socket addresses

An address of a host and a port, as text: `127.0.0.1:9000`, `[2001:db8::1]:9000`. Reading
(`SocketAddress.parse?`) is strict about the four decimal parts of a version 4 address, which have
no leading zeros, and takes every way to shorten a version 6 address; writing
(`SocketAddress.render`) gives one form to each address, with its longest run of two or more zero
groups left out.
-/

namespace Countersign

/-- **A host address**: four bytes, or eight groups with the number of a scope. -/
inductive Host where
  | v4 (a b c d : Nat)
  | v6 (groups : List Nat) (scope : Nat)
deriving DecidableEq

/-- **A host address and a port.** -/
structure SocketAddress where
  host : Host
  port : Nat
deriving DecidableEq

namespace SocketAddress

/-! ### Reading -/

/-- A part of a text: its value and the rest of the text. -/
abbrev Reader (α : Type) := List Char → Option (α × List Char)

/-- The value of a digit in a base up to 16. -/
def digitValue? (base : Nat) (c : Char) : Option Nat :=
  let n := c.toNat
  let value :=
    if 48 ≤ n ∧ n ≤ 57 then some (n - 48)
    else if 97 ≤ n ∧ n ≤ 102 then some (n - 87)
    else if 65 ≤ n ∧ n ≤ 70 then some (n - 55)
    else none
  value.filter (· < base)

/-- A number: all digits that come next, at most `maxDigits` of them, below `bound`; a leading zero
stands alone unless `leadingZeros`. -/
def readNumber (base bound : Nat) (maxDigits : Option Nat) (leadingZeros : Bool) : Reader Nat :=
  fun text =>
    let digits := (text.takeWhile fun c => (digitValue? base c).isSome).filterMap (digitValue? base)
    let value := digits.foldl (fun n d => base * n + d) 0
    let tooLong := match maxDigits with
      | some m => decide (m < digits.length)
      | none => false
    let zeroFirst := !leadingZeros && digits.head? == some 0 && decide (1 < digits.length)
    if digits.isEmpty || tooLong || zeroFirst || decide (bound ≤ value) then none
    else some (value, text.drop digits.length)

/-- One given character. -/
def readChar (c : Char) : Reader Unit
  | [] => none
  | d :: rest => if d = c then some ((), rest) else none

/-- A part behind a separator, which the first part does not have. -/
def readNext {α : Type} (separator : Char) (first : Bool) (part : Reader α) : Reader α :=
  fun text => do
    let rest ← if first then some text else (readChar separator text).map Prod.snd
    part rest

/-- Four bytes. -/
def readV4 : Reader (List Nat) := fun text => do
  let byte := readNumber 10 256 (some 3) false
  let (a, rest) ← byte text
  let (b, rest) ← readNext '.' false byte rest
  let (c, rest) ← readNext '.' false byte rest
  let (d, rest) ← readNext '.' false byte rest
  some ([a, b, c, d], rest)

/-- Up to `room` groups between colons, the last two perhaps as four bytes; also whether they
were. -/
def readGroups : (room : Nat) → (first : Bool) → List Char → (List Nat × Bool) × List Char
  | 0, _, text => (([], false), text)
  | room + 1, first, text =>
    match if 0 < room then readNext ':' first readV4 text else none with
    | some ([a, b, c, d], rest) => (([256 * a + b, 256 * c + d], true), rest)
    | _ =>
      match readNext ':' first (readNumber 16 65536 (some 4) true) text with
      | none => (([], false), text)
      | some (group, rest) =>
        let ((groups, bytes), rest) := readGroups room false rest
        ((group :: groups, bytes), rest)

/-- Eight groups, some of which may be left out between two colons. -/
def readV6 : Reader (List Nat) := fun text =>
  let ((head, bytes), rest) := readGroups 8 true text
  if head.length = 8 then some (head, rest)
  else if bytes then none
  else do
    let ((), rest) ← readChar ':' rest
    let ((), rest) ← readChar ':' rest
    let ((tail, _), rest) := readGroups (7 - head.length) true rest
    some (head ++ List.replicate (8 - head.length - tail.length) 0 ++ tail, rest)

/-- A port behind a colon. -/
def readPort : Reader Nat := fun text => do
  let ((), rest) ← readChar ':' text
  readNumber 10 65536 none true rest

/-- A version 6 host in brackets, with the number of its scope. -/
def readBracketed : Reader Host := fun text => do
  let ((), rest) ← readChar '[' text
  let (groups, rest) ← readV6 rest
  let (scope, rest) ← match readChar '%' rest with
    | some ((), rest) => readNumber 10 UInt32.size none true rest
    | none => some (0, rest)
  let ((), rest) ← readChar ']' rest
  some (.v6 groups scope, rest)

/-- The socket address that a text spells. -/
def parse? (text : String) : Option SocketAddress :=
  let chars := text.toList
  let host := match readV4 chars with
    | some ([a, b, c, d], rest) => some (Host.v4 a b c d, rest)
    | _ => readBracketed chars
  match host with
  | none => none
  | some (host, rest) =>
    match readPort rest with
    | some (port, []) => some ⟨host, port⟩
    | _ => none

/-! ### Writing -/

/-- Four bytes as text. -/
def renderV4 (a b c d : Nat) : String :=
  toString a ++ "." ++ toString b ++ "." ++ toString c ++ "." ++ toString d

/-- Groups with colons between them. -/
def renderGroups (groups : List Nat) : String :=
  ":".intercalate (groups.map fun g => String.ofList (Nat.toDigits 16 g))

/-- The number of zeros at the start. -/
def leadingZeros (groups : List Nat) : Nat :=
  (groups.takeWhile (· == 0)).length

/-- The first longest run of zeros: where it starts and how long it is. -/
def longestZeros (groups : List Nat) : Nat × Nat :=
  (List.range groups.length).foldl (fun best i =>
    let n := leadingZeros (groups.drop i)
    if best.2 < n then (i, n) else best) (0, 0)

/-- Eight groups as text. -/
def renderV6 (groups : List Nat) : String :=
  match groups with
  | [0, 0, 0, 0, 0, 0xffff, x, y] =>
    "::ffff:" ++ renderV4 (x / 256) (x % 256) (y / 256) (y % 256)
  | _ =>
    let (start, n) := longestZeros groups
    if n < 2 then renderGroups groups
    else renderGroups (groups.take start) ++ "::" ++ renderGroups (groups.drop (start + n))

/-- The text of a socket address. -/
def render (a : SocketAddress) : String :=
  (match a.host with
    | .v4 a b c d => renderV4 a b c d
    | .v6 groups scope =>
      "[" ++ renderV6 groups ++ (if scope = 0 then "" else "%" ++ toString scope) ++ "]") ++
    ":" ++ toString a.port

end SocketAddress

end Countersign
