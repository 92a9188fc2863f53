import Countersign.Json.Basic

/-!
# Writing JSON

The compact form: no blanks, members in order, counts in decimal. Inside a string only the quote,
the backslash and control characters are escaped; every other character stands for itself.
-/

namespace Countersign.Json

/-- The letter of a control character's short escape. -/
def shortEscape? (c : Char) : Option Char :=
  if c = '"' then some '"'
  else if c = '\\' then some '\\'
  else if c = '\x08' then some 'b'
  else if c = '\x0c' then some 'f'
  else if c = '\n' then some 'n'
  else if c = '\r' then some 'r'
  else if c = '\t' then some 't'
  else none

/-- A hexadecimal digit, lower case. -/
def hexDigit (n : Nat) : Char :=
  if n < 10 then Char.ofNat (48 + n) else Char.ofNat (87 + n)

/-- A character inside a string, escaped if it must be. -/
def escape (c : Char) : List Char :=
  match shortEscape? c with
  | some letter => ['\\', letter]
  | none =>
    if c.toNat < 0x20 then
      ['\\', 'u', '0', '0', hexDigit (c.toNat / 16), hexDigit (c.toNat % 16)]
    else [c]

/-- A text as a string of the format, in quotes. -/
def writeString (text : String) : List Char :=
  '"' :: (text.toList.flatMap escape ++ ['"'])

/-- Decimal digits. -/
def writeDigits (digits : List Nat) : List Char :=
  digits.map fun d => Char.ofNat (48 + d)

/-- A number as it is kept. -/
def writeNumber (n : Number) : List Char :=
  (if n.negative then ['-'] else []) ++ writeDigits n.whole ++
    (match n.fraction with
      | none => []
      | some digits => '.' :: writeDigits digits) ++
    (match n.exponent with
      | none => []
      | some (negative, digits) =>
        'e' :: ((if negative then ['-'] else []) ++ writeDigits digits))

mutual

/-- A value in compact form. What was never read (a string without text, a place where a text broke
off) is written as `null`. -/
def write : Json → List Char
  | .null | .broken | .string none => ['n', 'u', 'l', 'l']
  | .bool true => ['t', 'r', 'u', 'e']
  | .bool false => ['f', 'a', 'l', 's', 'e']
  | .number n => writeNumber n
  | .string (some text) => writeString text
  | .array elements _ => '[' :: (writeElements elements ++ [']'])
  | .object members _ => '\x7b' :: (writeMembers members ++ ['\x7d'])

/-- Elements with commas between them. -/
def writeElements : List Json → List Char
  | [] => []
  | [j] => write j
  | j :: rest => write j ++ ',' :: writeElements rest

/-- Members with commas between them. -/
def writeMembers : List (String × Json) → List Char
  | [] => []
  | [(name, j)] => writeString name ++ ':' :: write j
  | (name, j) :: rest => writeString name ++ ':' :: (write j ++ ',' :: writeMembers rest)

end

/-- The compact text of a value, without a blank. -/
def render (j : Json) : String :=
  String.ofList (write j)

end Countersign.Json
