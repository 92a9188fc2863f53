import Countersign.Json.Basic

/-!
# Reading JSON

`Json.read` reads the first value of a byte string and never fails: where the text goes wrong the
tree stops with a `broken` node, an unclosed array, or an unclosed object, and nothing behind that
place is looked at. `Json.parse?` accepts a text only if it is one intact value with nothing but
blanks around it.

What counts as wrong is the grammar alone. A string with half a surrogate pair or with bytes that
are no UTF-8 is well-formed and reads as a string without text; a member *name* of that kind breaks
its object off, because a name is always looked at.
-/

namespace Countersign.Json

/-! ### Blanks and digits -/

/-- Space, tab, line feed and carriage return. -/
def isBlank (b : UInt8) : Bool :=
  b == 0x20 || b == 0x09 || b == 0x0a || b == 0x0d

/-- The text behind its leading blanks, which may stand between any two parts. -/
def skipBlanks (bytes : Bytes) : Bytes :=
  bytes.dropWhile isBlank

/-- A decimal digit. -/
def isDigit (b : UInt8) : Bool :=
  0x30 ≤ b && b ≤ 0x39

/-- The leading digits' values, and the rest. -/
def readDigits (bytes : Bytes) : List Nat × Bytes :=
  ((bytes.takeWhile isDigit).map fun b => b.toNat - 48, bytes.dropWhile isDigit)

/-! ### Numbers -/

/-- A fraction, if a point comes next; a point needs a digit behind it. -/
def readFraction (bytes : Bytes) : Option (Option (List Nat) × Bytes) :=
  match bytes with
  | 0x2e :: rest =>
    match readDigits rest with
    | ([], _) => none
    | (digits, rest) => some (some digits, rest)
  | _ => some (none, bytes)

/-- An exponent, if an `e` or `E` comes next; it needs a digit behind the optional sign. -/
def readExponent (bytes : Bytes) : Option (Option (Bool × List Nat) × Bytes) :=
  match bytes with
  | [] => some (none, bytes)
  | e :: rest =>
    if e == 0x65 || e == 0x45 then
      let (negative, rest) := match rest with
        | 0x2d :: rest => (true, rest)
        | 0x2b :: rest => (false, rest)
        | _ => (false, rest)
      match readDigits rest with
      | ([], _) => none
      | (digits, rest) => some (some (negative, digits), rest)
    else some (none, bytes)

/-- A number behind its sign. A leading zero stands alone, so `01` is no number. -/
def readUnsigned (negative : Bool) (bytes : Bytes) : Option (Number × Bytes) :=
  match readDigits bytes with
  | ([], _) => none
  | (0 :: _ :: _, _) => none
  | (whole, rest) =>
    match readFraction rest with
    | none => none
    | some (fraction, rest) =>
      match readExponent rest with
      | none => none
      | some (exponent, rest) => some (⟨negative, whole, fraction, exponent⟩, rest)

/-- A number. -/
def readNumber (bytes : Bytes) : Option (Number × Bytes) :=
  match bytes with
  | 0x2d :: rest => readUnsigned true rest
  | _ => readUnsigned false bytes

/-! ### Strings -/

/-- **A piece of a string**: a byte that stands for itself, or an escaped code unit. -/
inductive Piece where
  | byte (b : UInt8)
  | unit (u : Nat)
deriving DecidableEq

/-- The byte that a one-letter escape stands for. -/
def escaped? (letter : UInt8) : Option UInt8 :=
  if letter == 0x22 || letter == 0x5c || letter == 0x2f then some letter
  else if letter == 0x62 then some 0x08
  else if letter == 0x66 then some 0x0c
  else if letter == 0x6e then some 0x0a
  else if letter == 0x72 then some 0x0d
  else if letter == 0x74 then some 0x09
  else none

/-- The value of a hexadecimal digit, in either case. -/
def hexValue? (b : UInt8) : Option Nat :=
  if isDigit b then some (b.toNat - 48)
  else if 0x61 ≤ b && b ≤ 0x66 then some (b.toNat - 87)
  else if 0x41 ≤ b && b ≤ 0x46 then some (b.toNat - 55)
  else none

/-- A code unit from its four digits. -/
def unit? (a b c d : UInt8) : Option Nat :=
  match hexValue? a, hexValue? b, hexValue? c, hexValue? d with
  | some a, some b, some c, some d => some (4096 * a + 256 * b + 16 * c + d)
  | _, _, _, _ => none

/-- **The pieces of a string behind its opening quote**, and the rest behind the closing one. A
control character, an unknown escape or the end of the text breaks it off. -/
def readPieces : Bytes → Option (List Piece × Bytes)
  | [] => none
  | 0x22 :: rest => some ([], rest)
  | 0x5c :: 0x75 :: a :: b :: c :: d :: rest =>
    match unit? a b c d, readPieces rest with
    | some u, some (pieces, rest) => some (.unit u :: pieces, rest)
    | _, _ => none
  -- Any other escape is one letter.
  | 0x5c :: letter :: rest =>
    match escaped? letter, readPieces rest with
    | some b, some (pieces, rest) => some (.byte b :: pieces, rest)
    | _, _ => none
  | b :: rest =>
    if b < 0x20 || b == 0x5c then none
    else
      match readPieces rest with
      | some (pieces, rest) => some (.byte b :: pieces, rest)
      | none => none

/-- The UTF-8 bytes of a code point that is no half of a pair. -/
def codePoint (n : Nat) : Bytes :=
  Bytes.ofText (String.singleton (Char.ofNat n))

/-- **The bytes that pieces spell.** The first half of a surrogate pair must be followed by the
second, which stands nowhere else. -/
def joinPieces : List Piece → Option Bytes
  | [] => some []
  | .byte b :: rest => (joinPieces rest).map (b :: ·)
  | .unit high :: .unit low :: rest =>
    if 0xd800 ≤ high ∧ high < 0xdc00 then
      if 0xdc00 ≤ low ∧ low < 0xe000 then
        (joinPieces rest).map
          (codePoint (0x10000 + 0x400 * (high - 0xd800) + (low - 0xdc00)) ++ ·)
      else none
    else if 0xdc00 ≤ high ∧ high < 0xe000 then none
    else (joinPieces (.unit low :: rest)).map (codePoint high ++ ·)
  | .unit u :: rest =>
    if 0xd800 ≤ u ∧ u < 0xe000 then none
    else (joinPieces rest).map (codePoint u ++ ·)

/-- The text that pieces spell, if they spell one. Bytes that are no UTF-8 spell none. -/
def textOfPieces (pieces : List Piece) : Option String :=
  (joinPieces pieces).bind Bytes.toText?

/-! ### Values -/

/-- A word of the grammar, if the text starts with it. What follows is the next reader's
business. -/
def readWord (word : Bytes) (bytes : Bytes) : Option Bytes :=
  if word.isPrefixOf bytes then some (bytes.drop word.length) else none

/-- **A value without parts.** -/
def readScalar (bytes : Bytes) : Json × Option Bytes :=
  match bytes with
  | 0x22 :: rest =>
    match readPieces rest with
    | some (pieces, rest) => (.string (textOfPieces pieces), some rest)
    | none => (.broken, none)
  -- The first byte of a word decides which word it has to be.
  | 0x6e :: _ =>
    match readWord [0x6e, 0x75, 0x6c, 0x6c] bytes with
    | some rest => (.null, some rest)
    | none => (.broken, none)
  | 0x74 :: _ =>
    match readWord [0x74, 0x72, 0x75, 0x65] bytes with
    | some rest => (.bool true, some rest)
    | none => (.broken, none)
  | 0x66 :: _ =>
    match readWord [0x66, 0x61, 0x6c, 0x73, 0x65] bytes with
    | some rest => (.bool false, some rest)
    | none => (.broken, none)
  | _ =>
    match readNumber bytes with
    | some (n, rest) => (.number n, some rest)
    | none => (.broken, none)

/-- A member's name, and the rest behind its closing quote, blanks in front skipped. -/
def readName (bytes : Bytes) : Option (String × Bytes) :=
  match skipBlanks bytes with
  | 0x22 :: rest =>
    match readPieces rest with
    | some (pieces, rest) => (textOfPieces pieces).map fun name => (name, rest)
    | none => none
  | _ => none

mutual

/-- **A value**, and the rest of the text if the value is intact. -/
def readValue : (fuel : Nat) → Bytes → Json × Option Bytes
  | 0, _ => (.broken, none)
  | fuel + 1, bytes =>
    match skipBlanks bytes with
    | 0x5b :: rest =>
      -- An empty list is told here, because elements are read from where one must stand.
      match skipBlanks rest with
      | 0x5d :: rest => (.array [] true, some rest)
      | rest =>
        let (elements, rest) := readElements fuel rest
        (.array elements rest.isSome, rest)
    | 0x7b :: rest =>
      match skipBlanks rest with
      | 0x7d :: rest => (.object [] true, some rest)
      | rest =>
        let (members, rest) := readMembers fuel rest
        (.object members rest.isSome, rest)
    | rest => readScalar rest

/-- **The elements of an array** from a place where one must stand. -/
def readElements : (fuel : Nat) → Bytes → List Json × Option Bytes
  | 0, _ => ([], none)
  | fuel + 1, bytes =>
    if (skipBlanks bytes).isEmpty then ([], none)
    else
      match readValue fuel bytes with
      | (value, none) => ([value], none)
      | (value, some rest) =>
        match skipBlanks rest with
        | 0x5d :: rest => ([value], some rest)
        | 0x2c :: rest =>
          match skipBlanks rest with
          -- A comma needs an element behind it.
          | 0x5d :: _ => ([value], none)
          | rest =>
            let (values, rest) := readElements fuel rest
            (value :: values, rest)
        | _ => ([value], none)

/-- **The members of an object** from a place where one must stand. A missing colon leaves the
member with a broken value. -/
def readMembers : (fuel : Nat) → Bytes → List (String × Json) × Option Bytes
  | 0, _ => ([], none)
  | fuel + 1, bytes =>
    match readName bytes with
    | none => ([], none)
    | some (name, rest) =>
      match skipBlanks rest with
      | 0x3a :: rest =>
        match readValue fuel rest with
        | (value, none) => ([(name, value)], none)
        | (value, some rest) =>
          match skipBlanks rest with
          | 0x7d :: rest => ([(name, value)], some rest)
          -- Behind a comma another member must stand, so a trailing comma is a fault.
          | 0x2c :: rest =>
            let (members, rest) := readMembers fuel rest
            ((name, value) :: members, rest)
          | _ => ([(name, value)], none)
      | _ => ([(name, .broken)], none)

end

/-- The first value of a text, as far as it can be read. Each step of the reader uses up a byte, so
the fuel is enough. -/
def read (bytes : Bytes) : Json :=
  (readValue (bytes.length + 1) bytes).1

/-- The value of a text that holds one value and blanks around it. -/
def parse? (bytes : Bytes) : Option Json :=
  match readValue (bytes.length + 1) bytes with
  | (value, some rest) => if (skipBlanks rest).isEmpty then some value else none
  | (_, none) => none

end Countersign.Json
