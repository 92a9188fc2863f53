/-!
# Durations in messages

A duration in milliseconds is shown in the largest unit that it reaches: whole milliseconds below a
second, then seconds with as many of three decimals as are needed (`1.5s`, `1.234s`, `2s`), and
`0ns` for no time at all.
-/

namespace Countersign.Text

/-- A fraction of a thousand, behind a point and without trailing zeros; nothing for zero. -/
def thousandths (n : Nat) : List Char :=
  if n = 0 then []
  else if n % 100 = 0 then '.' :: Nat.toDigits 10 (n / 100)
  else if n % 10 = 0 then
    '.' :: (if n < 100 then ['0'] else []) ++ Nat.toDigits 10 (n / 10)
  else
    '.' :: (if n < 100 then ['0'] else []) ++ (if n < 10 then ['0'] else []) ++ Nat.toDigits 10 n

/-- A number of milliseconds as text. -/
def duration (ms : Nat) : String :=
  if ms = 0 then "0ns"
  else if ms < 1000 then String.ofList (Nat.toDigits 10 ms ++ ['m', 's'])
  else String.ofList (Nat.toDigits 10 (ms / 1000) ++ thousandths (ms % 1000) ++ ['s'])

end Countersign.Text
