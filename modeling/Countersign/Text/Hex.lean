import Countersign.Bytes
import Countersign.Text.Quoted

/-!
# Hexadecimal text

Two digits for a byte, the high half first. Writing uses lower case (`Hex.encode`); reading takes
either case and works on the bytes of the text, so a fault names the first *byte* that is no digit
and its position in bytes (`Hex.decode`). The faults come in a fixed order: an odd number of digits,
then (where a number of bytes is asked for) a wrong length, then a byte that is no digit.

`Hex.decode_encode` says that writing reads back.
-/

namespace Countersign.Hex

/-- The digit of a half byte. -/
def digit (n : Nat) : Char :=
  if n < 10 then Char.ofNat (48 + n) else Char.ofNat (87 + n)

/-- The two digits of a byte. -/
def digits (b : UInt8) : List Char :=
  [digit (b.toNat / 16), digit (b.toNat % 16)]

/-- Lower-case hexadecimal digits, two for each byte. -/
def encode (bytes : Bytes) : String :=
  String.ofList (bytes.flatMap digits)

/-- Lower-case hexadecimal digits behind `0x`. -/
def encodePrefixed (bytes : Bytes) : String :=
  "0x" ++ encode bytes

/-- The value of a byte read as a digit, in either case. -/
def value? (b : UInt8) : Option Nat :=
  let n := b.toNat
  if 48 ≤ n ∧ n ≤ 57 then some (n - 48)
  else if 97 ≤ n ∧ n ≤ 102 then some (n - 87)
  else if 65 ≤ n ∧ n ≤ 70 then some (n - 55)
  else none

/-- **Why a text is no hexadecimal writing.** -/
inductive Fault where
  | oddLength
  | wrongLength
  | invalidByte (byte : UInt8) (position : Nat)
deriving DecidableEq, Repr

/-- Reading digits in pairs, from the byte at `position` on. -/
def decodePairs (position : Nat) : Bytes → Except Fault Bytes
  | [] => .ok []
  | [_] => .error .oddLength
  | high :: low :: rest =>
    match value? high, value? low with
    | none, _ => .error (.invalidByte high position)
    | some _, none => .error (.invalidByte low (position + 1))
    | some h, some l => (decodePairs (position + 2) rest).map (UInt8.ofNat (16 * h + l) :: ·)

/-- Reading hexadecimal digits of any even number. -/
def decode (digits : Bytes) : Except Fault Bytes :=
  if digits.length % 2 = 1 then .error .oddLength else decodePairs 0 digits

/-- Reading exactly `count` bytes. -/
def decodeExactly (count : Nat) (digits : Bytes) : Except Fault Bytes :=
  if digits.length % 2 = 1 then .error .oddLength
  else if digits.length ≠ 2 * count then .error .wrongLength
  else decodePairs 0 digits

/-- The text without one leading `0x`. -/
def stripPrefix (text : Bytes) : Bytes :=
  match text with
  | 0x30 :: 0x78 :: rest => rest
  | _ => text

/-- The text without one leading `0x` or `0X`. -/
def stripAnyPrefix (text : Bytes) : Bytes :=
  match text with
  | 0x30 :: 0x78 :: rest => rest
  | 0x30 :: 0x58 :: rest => rest
  | _ => text

/-- A fault in words. The offending byte is shown as the character of that number. -/
def Fault.message : Fault → String
  | .oddLength => "odd number of digits"
  | .wrongLength => "invalid string length"
  | .invalidByte byte position =>
    "invalid character " ++ Text.quoteChar (Char.ofNat byte.toNat) ++ " at position " ++
      toString position

/-! ### Reading back what was written -/

theorem value?_digit (n : Nat) (h : n < 16) :
    value? (UInt8.ofNat (digit n).toNat) = some n := by
  revert n; decide

/-- A digit is one byte of a text. -/
theorem utf8EncodeChar_digit (n : Nat) (h : n < 16) :
    String.utf8EncodeChar (digit n) = [UInt8.ofNat (digit n).toNat] := by
  revert n; decide

/-- The two digits of a byte, as bytes of a text. -/
def digitBytes (b : UInt8) : Bytes :=
  (digits b).map fun c => UInt8.ofNat c.toNat

theorem ofText_encode (bytes : Bytes) :
    Bytes.ofText (encode bytes) = bytes.flatMap digitBytes := by
  rw [encode, Bytes.ofText_ofList, List.flatMap_assoc]
  congr 1
  funext b
  have h := b.toNat_lt
  simp [digits, digitBytes, utf8EncodeChar_digit _ (show b.toNat / 16 < 16 by omega),
    utf8EncodeChar_digit _ (show b.toNat % 16 < 16 by omega)]

theorem length_flatMap_digitBytes (bytes : Bytes) :
    (bytes.flatMap digitBytes).length = 2 * bytes.length := by
  induction bytes with
  | nil => rfl
  | cons b rest ih =>
    rw [List.flatMap_cons, List.length_append, ih]
    simp [digitBytes, digits]
    omega

theorem decodePairs_digitBytes (position : Nat) (bytes : Bytes) :
    decodePairs position (bytes.flatMap digitBytes) = .ok bytes := by
  induction bytes generalizing position with
  | nil => rfl
  | cons b rest ih =>
    have h := b.toNat_lt
    -- The two digits are the halves of the byte.
    have hb : UInt8.ofNat (16 * (b.toNat / 16) + b.toNat % 16) = b := by
      rw [Nat.div_add_mod]
      simp
    rw [List.flatMap_cons]
    show decodePairs position (UInt8.ofNat (digit (b.toNat / 16)).toNat ::
      UInt8.ofNat (digit (b.toNat % 16)).toNat :: rest.flatMap digitBytes) = _
    rw [decodePairs, value?_digit _ (by omega), value?_digit _ (by omega)]
    simp [ih, Except.map, hb]

/-- Writing reads back. -/
theorem decode_encode (bytes : Bytes) : decode (Bytes.ofText (encode bytes)) = .ok bytes := by
  rw [ofText_encode, decode, length_flatMap_digitBytes, decodePairs_digitBytes]
  simp

end Countersign.Hex
