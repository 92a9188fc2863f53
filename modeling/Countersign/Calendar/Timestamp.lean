import Countersign.Calendar.Date
import Countersign.Bytes

/-!
# Moments and their text

A `Timestamp` is a moment as a clock on the wall shows it: a date, a time of day down to the
nanosecond, and the offset of that clock in minutes. Two timestamps of different offsets can mean
the same moment (`Timestamp.isSameMoment`).

The text is the usual one of the internet: `2024-02-29T12:00:00.5+01:00`, with `Z` for no offset.

* **Writing** (`Timestamp.write?`) keeps the offset and drops trailing zeros of the fraction. It is
  possible only for years from 0 to 9999.
* **Reading** (`Timestamp.parse?`) takes any one byte between date and time, and a `z` in either
  case. Digits of the fraction beyond nine are dropped. The second 60 is taken only where a leap
  second can be: at the end of the last day of a month of universal time. It is kept as the last
  nanosecond of the second before.
* **Counting** (`Timestamp.unixSeconds`, `Timestamp.ofUnixSeconds?`) is by whole seconds from the
  start of 1970, within the years -9999 to 9999.
-/

namespace Countersign

/-- **A moment on a wall clock.** `offset` is in minutes, ahead of universal time if positive. -/
structure Timestamp where
  date : Date
  hour : Nat
  minute : Nat
  second : Nat
  nanosecond : Nat
  offset : Int
  hour_lt : hour < 24
  minute_lt : minute < 60
  second_lt : second < 60
  nanosecond_lt : nanosecond < 1000000000
  offset_lt : offset.natAbs < 1440
deriving DecidableEq

namespace Timestamp

/-- The start of 1970 in universal time. -/
def epoch : Timestamp :=
  ⟨.epoch, 0, 0, 0, 0, 0, by decide, by decide, by decide, by decide, by decide⟩

/-! ### Counting seconds -/

/-- Whole seconds since the start of 1970, rounded down. The fraction of a second counts forward
from there, also before 1970. -/
def unixSeconds (t : Timestamp) : Int :=
  t.date.dayNumber * 86400 + t.hour * 3600 + t.minute * 60 + t.second - t.offset * 60

/-- Whether two timestamps mean the same moment. -/
def isSameMoment (s t : Timestamp) : Bool :=
  s.unixSeconds == t.unixSeconds && s.nanosecond == t.nanosecond

/-- The first second of the year -9999. -/
def firstUnixSecond : Int := -377705116800

/-- The last second of the year 9999. -/
def lastUnixSecond : Int := 253402300799

/-- The moment that many seconds after the start of 1970, in universal time, if its year is within
range. -/
def ofUnixSeconds? (n : Int) : Option Timestamp :=
  if firstUnixSecond ≤ n ∧ n ≤ lastUnixSecond then
    (Date.ofDayNumber? (n / 86400)).map fun date =>
      let s := (n % 86400).toNat
      have hs : s < 86400 := by omega
      ⟨date, s / 3600, s % 3600 / 60, s % 60, 0, 0, by omega, by omega, by omega, by decide,
        by decide⟩
  else none

/-! ### Writing -/

/-- The last `width` decimal digits of a number. -/
def fixedDigits : (width : Nat) → Nat → List Char
  | 0, _ => []
  | width + 1, n => fixedDigits width (n / 10) ++ [Char.ofNat (48 + n % 10)]

/-- A fraction of a second behind a point, without trailing zeros; nothing for zero. -/
def writeFraction (nanosecond : Nat) : List Char :=
  if nanosecond = 0 then []
  else '.' :: ((fixedDigits 9 nanosecond).reverse.dropWhile (· == '0')).reverse

/-- An offset: `Z` for none. -/
def writeOffset (offset : Int) : List Char :=
  if offset = 0 then ['Z']
  else
    (if offset < 0 then '-' else '+') ::
      (fixedDigits 2 (offset.natAbs / 60) ++ ':' :: fixedDigits 2 (offset.natAbs % 60))

/-- The text of a timestamp, if its year has four digits. -/
def write? (t : Timestamp) : Option (List Char) :=
  if 0 ≤ t.date.year ∧ t.date.year ≤ 9999 then
    some (fixedDigits 4 t.date.year.toNat ++ '-' :: (fixedDigits 2 t.date.month ++
      '-' :: (fixedDigits 2 t.date.day ++ 'T' :: (fixedDigits 2 t.hour ++
      ':' :: (fixedDigits 2 t.minute ++ ':' :: (fixedDigits 2 t.second ++
      (writeFraction t.nanosecond ++ writeOffset t.offset)))))))
  else none

/-! ### Reading -/

/-- The value of a decimal digit. -/
def digit? (b : UInt8) : Option Nat :=
  if 48 ≤ b.toNat ∧ b.toNat ≤ 57 then some (b.toNat - 48) else none

/-- A number of exactly `width` digits, onto the digits read before, and the rest. A sign or a blank
is no digit. -/
def readFixed : (width acc : Nat) → Bytes → Option (Nat × Bytes)
  | 0, acc, bytes => some (acc, bytes)
  | _ + 1, _, [] => none
  | width + 1, acc, b :: rest =>
    match digit? b with
    | some d => readFixed width (10 * acc + d) rest
    | none => none

/-- One given byte, and the rest behind it. -/
def readByte (byte : UInt8) : Bytes → Option Bytes
  | [] => none
  | b :: rest => if b == byte then some rest else none

/-- A fraction of a second in nanoseconds, nothing being zero; a point needs a digit behind it, and
digits beyond nine are dropped. -/
def readFraction (bytes : Bytes) : Option (Nat × Bytes) :=
  match bytes with
  | 0x2e :: rest =>
    let digits := rest.takeWhile fun b => (digit? b).isSome
    if digits.isEmpty then none
    else
      let kept := (digits.filterMap digit? ++ List.replicate 9 0).take 9
      some (kept.foldl (fun n d => 10 * n + d) 0, rest.drop digits.length)
  | _ => some (0, bytes)

/-- An offset in minutes, which must end the text. -/
def readOffset (bytes : Bytes) : Option Int :=
  match bytes with
  | [b] => if b == 0x5a || b == 0x7a then some 0 else none
  | sign :: rest =>
    if sign == 0x2b || sign == 0x2d then do
      let (hours, rest) ← readFixed 2 0 rest
      let rest ← readByte 0x3a rest
      let (minutes, rest) ← readFixed 2 0 rest
      if rest.isEmpty ∧ hours < 24 ∧ minutes < 60 then
        some (if sign == 0x2d then - (60 * hours + minutes : Int) else 60 * hours + minutes)
      else none
    else none
  | [] => none

/-- The timestamp of given numbers, if they are in range. -/
def ofNumbers? (date : Date) (hour minute second nanosecond : Nat) (offset : Int) :
    Option Timestamp :=
  if h : hour < 24 ∧ minute < 60 ∧ second < 60 ∧ nanosecond < 1000000000 ∧
      offset.natAbs < 1440 then
    some ⟨date, hour, minute, second, nanosecond, offset, h.1, h.2.1, h.2.2.1, h.2.2.2.1,
      h.2.2.2.2⟩
  else none

/-- Whether a leap second can follow: the last second of a month in universal time. The offset of
the clock on the wall has to be taken away before this is asked. -/
def endsMonth (t : Timestamp) : Bool :=
  let n := t.unixSeconds
  n % 86400 == 86399 &&
    match Date.ofDayNumber? (n / 86400) with
    | some date => date.isLastOfMonth
    | none => false

/-- **The timestamp that a text spells.** -/
def parse? (bytes : Bytes) : Option Timestamp := do
  let (year, rest) ← readFixed 4 0 bytes
  let rest ← readByte 0x2d rest
  let (month, rest) ← readFixed 2 0 rest
  let rest ← readByte 0x2d rest
  let (day, rest) ← readFixed 2 0 rest
  let rest ← match rest with
    | [] => none
    | _ :: rest => some rest
  let (hour, rest) ← readFixed 2 0 rest
  let rest ← readByte 0x3a rest
  let (minute, rest) ← readFixed 2 0 rest
  let rest ← readByte 0x3a rest
  let (second, rest) ← readFixed 2 0 rest
  let (nanosecond, rest) ← readFraction rest
  let offset ← readOffset rest
  let date ← Date.ofNumbers? year month day
  -- A leap second is kept as the end of the second before, where there can be one.
  if second = 60 then
    let t ← ofNumbers? date hour minute 59 999999999 offset
    if t.endsMonth then some t else none
  else ofNumbers? date hour minute second nanosecond offset

end Timestamp

end Countersign
