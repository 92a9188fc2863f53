import Countersign.Text.Printable

/-!
# Quoted text

How a text is shown inside a message: between quotes, with the quote, the backslash and the
characters that cannot stand for themselves written as escapes. A text stands between double quotes
and escapes those (`quote`); a single character stands between single quotes and escapes those
(`quoteChar`).
-/

namespace Countersign.Text

/-- A number in lower-case hexadecimal, without leading zeros. -/
def hexNumber (n : Nat) : List Char :=
  Nat.toDigits 16 n

/-- A character between quotes `mark`. Tab, carriage return, line feed and the zero character have
short escapes; the mark and the backslash get a backslash in front; other unprintable ones show
their code point in braces. -/
def escape (mark c : Char) : List Char :=
  if c = '\t' then ['\\', 't']
  else if c = '\r' then ['\\', 'r']
  else if c = '\n' then ['\\', 'n']
  else if c = '\x00' then ['\\', '0']
  else if c = '\\' || c = mark then ['\\', c]
  else if isUnprintable c then '\\' :: 'u' :: '\x7b' :: (hexNumber c.toNat ++ ['\x7d'])
  else [c]

/-- A text between double quotes. -/
def quote (text : String) : String :=
  String.ofList ('"' :: (text.toList.flatMap (escape '"') ++ ['"']))

/-- A character between single quotes. -/
def quoteChar (c : Char) : String :=
  String.ofList ('\'' :: (escape '\'' c ++ ['\'']))

end Countersign.Text
