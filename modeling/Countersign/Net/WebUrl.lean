import Countersign.Bytes
import Countersign.Net.SocketAddress
import Countersign.Text.Hex

/-!
# Addresses of web services

Which texts name a web service that can be connected to. The rules are those of browsers, which are
lenient: blanks around the address and line breaks inside it do not count, slashes may lean the
other way or be missing, and only the host and the port can be wrong. A host that ends in a number
must be an address of version 4, in any of its spellings.

An address without a scheme is taken for a plain one if it is a socket address or begins with the
name of this machine (`WebUrl.isConnectable`).
-/

namespace Countersign.WebUrl

/-- A number in one of three bases: behind `0x` or `0X` with base 16, behind another zero with base
8, else with base 10. No digits mean zero behind a zero. -/
def number? (text : List Char) : Option Nat :=
  let read (base : Nat) (digits : List Char) : Option Nat :=
    digits.foldlM (fun n c => (SocketAddress.digitValue? base c).map (base * n + ·)) 0
  match text with
  | [] => none
  | '0' :: 'x' :: digits | '0' :: 'X' :: digits => read 16 digits
  | '0' :: digits => read 8 digits
  | digits => read 10 digits

/-- The pieces between points. -/
def labels : List Char → List (List Char)
  | [] => [[]]
  | '.' :: rest => [] :: labels rest
  | c :: rest =>
    match labels rest with
    | [] => [[c]]
    | label :: more => (c :: label) :: more

/-- The labels of a host, without an empty one at the end. -/
def hostLabels (host : List Char) : List (List Char) :=
  let all := labels host
  if 1 < all.length ∧ all.getLast? = some [] then all.dropLast else all

/-- Whether a host ends in a number and so must be an address. -/
def endsInNumber (host : List Char) : Bool :=
  match (hostLabels host).getLast? with
  | none | some [] => false
  | some label =>
    label.all Char.isDigit ||
      (match label with
        | '0' :: 'x' :: _ | '0' :: 'X' :: _ => (number? label).isSome
        | _ => false)

/-- Whether a host is an address of version 4: up to four numbers, all but the last one below 256,
and the last one filling up the rest. -/
def isV4 (host : List Char) : Bool :=
  let parts := hostLabels host
  match parts.mapM number? with
  | none => false
  | some numbers =>
    numbers.length ≤ 4 && numbers.dropLast.all (· < 256) &&
      numbers.getLast?.all (· < 1 <<< (8 * (5 - numbers.length)))

/-- Whether a character may not stand in a host. -/
def isForbidden (c : Char) : Bool :=
  c.toNat ≤ 0x20 || c.toNat == 0x7f || "%#/:<>?@[\\]^|".toList.contains c

/-- Percent signs with two digits read as bytes. -/
def unescape : Bytes → Bytes
  | 0x25 :: a :: b :: rest =>
    match Hex.value? a, Hex.value? b with
    | some high, some low => UInt8.ofNat (16 * high + low) :: unescape rest
    | _, _ => 0x25 :: unescape (a :: b :: rest)
  | b :: rest => b :: unescape rest
  | [] => []

/-- Whether a text is a host: an address of version 6 in brackets, or a name. -/
def isHost (host : List Char) : Bool :=
  match host with
  | '[' :: rest =>
    rest.getLast? == some ']' &&
      (match SocketAddress.readV6 rest.dropLast with
        | some (_, []) => true
        | _ => false)
  | _ =>
    match Bytes.toText? (unescape (Bytes.ofText (String.ofList host))) with
    | none => false
    | some name =>
      !name.isEmpty && !name.toList.any isForbidden &&
        (!endsInNumber name.toList || isV4 name.toList)

/-- Whether a text is a port, which may be empty. -/
def isPort (text : List Char) : Bool :=
  text.all Char.isDigit && text.foldl (fun n c => 10 * n + (c.toNat - 48)) 0 < 65536

/-- The host and the port of an authority: the port is behind the first colon outside brackets. -/
def splitPort (inside : Bool) : List Char → List Char × List Char
  | [] => ([], [])
  | c :: rest =>
    if c = ':' ∧ !inside then ([], rest)
    else
      let (host, port) :=
        splitPort (if c = '[' then true else if c = ']' then false else inside) rest
      (c :: host, port)

/-- The text behind its last `@`. -/
def withoutUser (authority : List Char) : List Char :=
  (authority.reverse.takeWhile (· != '@')).reverse

/-- Whether a text is an authority: perhaps a user, a host, and perhaps a port. -/
def isAuthority (text : List Char) : Bool :=
  let (host, port) := splitPort false (withoutUser text)
  isHost host && isPort port

/-- What counts of an address: everything but blanks around it and line breaks. -/
def significant (text : String) : List Char :=
  let isBlank (c : Char) : Bool := c.toNat ≤ 0x20
  let trimmed := (text.toList.dropWhile isBlank).reverse.dropWhile isBlank
  trimmed.reverse.filter fun c => c != '\t' && c != '\n' && c != '\r'

/-- Whether a text names a web service, with its scheme. -/
def isValid (text : String) : Bool :=
  let chars := significant text
  let scheme := chars.takeWhile (· != ':')
  let rest := (chars.drop (scheme.length + 1)).dropWhile fun c => c == '/' || c == '\\'
  let authority := rest.takeWhile fun c => c != '/' && c != '\\' && c != '?' && c != '#'
  scheme.length < chars.length &&
    ["http", "https"].contains (String.ofList (scheme.map Char.toLower)) && isAuthority authority

/-- Whether a text names a web service, perhaps without its scheme. -/
def isConnectable (text : String) : Bool :=
  if "localhost:".toList.isPrefixOf text.toList || (SocketAddress.parse? text).isSome then
    isValid ("http://" ++ text)
  else isValid text

end Countersign.WebUrl
