import Countersign.Proofs.Calendar.DayNumber
import Countersign.Proofs.Text.Characters
import Mathlib.Algebra.Ring.Nat

/-!
# Times read back

What `Timestamp.write?` writes of a timestamp is read by `Timestamp.parse?` as this timestamp, with
the offset of its clock and to the nanosecond (`Timestamp.parse?_write?`). Every timestamp of a year
from 0 to 9999 has such a text (`Timestamp.isSome_write?_iff`).

Numbers of a fixed width are read digit by digit from the front, though they are written from the
end; both are the same fold over the digits (`readFixed_digits`, `value_fixedDigits`). A fraction
loses its trailing zeros in writing, and the reader fills them up again (`readFraction_write`).
-/

namespace Countersign.Timestamp

/-! ### Digits -/

/-- A decimal digit, by its place among the characters. -/
def IsDigit (c : Char) : Prop := 48 ≤ c.toNat ∧ c.toNat ≤ 57

/-- The number that digits spell, behind those read before. Reader and writer are both compared with
this fold. -/
def value (before : Nat) (digits : List Char) : Nat :=
  digits.foldl (fun n c => 10 * n + (c.toNat - 48)) before

/-- The bytes of written characters. -/
private abbrev spelt (cs : List Char) : Bytes :=
  cs.flatMap String.utf8EncodeChar

private theorem spelt_append (cs ds : List Char) : spelt (cs ++ ds) = spelt cs ++ spelt ds :=
  List.flatMap_append

private theorem toNat_digit (n : Nat) : (Char.ofNat (48 + n % 10)).toNat = 48 + n % 10 := by
  have hall : ∀ d < 10, (Char.ofNat (48 + d)).toNat = 48 + d := by decide
  exact hall _ (Nat.mod_lt _ (by decide))

theorem isDigit_fixedDigits {width n : Nat} : ∀ c ∈ fixedDigits width n, IsDigit c := by
  induction width generalizing n with
  | zero => exact fun c hc => absurd hc List.not_mem_nil
  | succ width ih =>
    intro c hc
    rcases List.mem_append.mp hc with hc | hc
    · exact ih c hc
    · rw [List.mem_singleton.mp hc, IsDigit, toNat_digit]
      omega

@[simp] theorem length_fixedDigits (width n : Nat) : (fixedDigits width n).length = width := by
  induction width generalizing n with
  | zero => rfl
  | succ width ih => rw [fixedDigits, List.length_append, ih, List.length_singleton]

/-- Digits of a fixed width spell the number, as far as it fits: of a greater one the front is
lost. -/
theorem value_fixedDigits (width n before : Nat) :
    value before (fixedDigits width n) = before * 10 ^ width + n % 10 ^ width := by
  induction width generalizing n with
  | zero => simp [value, fixedDigits, Nat.mod_one]
  | succ width ih =>
    have hquotient := ih (n / 10)
    rw [value] at hquotient
    have hmod : n % 10 ^ (width + 1) = n % 10 + 10 * (n / 10 % 10 ^ width) := by
      rw [Nat.pow_succ', Nat.mod_mul]
    have hpower : before * 10 ^ (width + 1) = 10 * (before * 10 ^ width) := by
      rw [Nat.pow_succ, ← Nat.mul_assoc, Nat.mul_comm]
    rw [value, fixedDigits, List.foldl_append, hquotient, List.foldl_cons, List.foldl_nil,
      toNat_digit, hmod, hpower]
    omega

theorem value_fixedDigits_of_lt {width n : Nat} (h : n < 10 ^ width) :
    value 0 (fixedDigits width n) = n := by
  rw [value_fixedDigits, Nat.mod_eq_of_lt h, Nat.zero_mul, Nat.zero_add]

/-- A digit is one byte, which has its value. So characters may be counted in place of bytes. -/
theorem IsDigit.utf8EncodeChar {c : Char} (h : IsDigit c) :
    String.utf8EncodeChar c = [UInt8.ofNat c.toNat] ∧
      digit? (UInt8.ofNat c.toNat) = some (c.toNat - 48) := by
  have hbyte : (UInt8.ofNat c.toNat).toNat = c.toNat := by
    rw [UInt8.toNat_ofNat']
    have hhigh := h.2
    omega
  refine ⟨utf8EncodeChar_of_le (Nat.le_trans h.2 (by decide)), ?_⟩
  rw [digit?, hbyte]
  exact if_pos h

/-- A number is read digit by digit, and the reader stops behind the last of them. -/
theorem readFixed_digits {digits : List Char} (h : ∀ c ∈ digits, IsDigit c) (before : Nat)
    (rest : Bytes) :
    readFixed digits.length before (spelt digits ++ rest) = some (value before digits, rest) := by
  induction digits generalizing before with
  | nil => rfl
  | cons c digits ih =>
    obtain ⟨hspelt, hdigit⟩ := (h c List.mem_cons_self).utf8EncodeChar
    rw [spelt, List.flatMap_cons, hspelt, List.length_cons, List.append_assoc,
      List.singleton_append, readFixed]
    simp only [hdigit]
    exact ih (fun d hd => h d (List.mem_cons_of_mem c hd)) _

/-- A number is read from its digits, if they are enough for it. All fields of a timestamp but the
fraction are read like this. -/
theorem readFixed_fixedDigits {width n : Nat} (h : n < 10 ^ width) (behind : List Char) :
    readFixed width 0 (spelt (fixedDigits width n ++ behind)) = some (n, spelt behind) := by
  have hdigits : ∀ c ∈ fixedDigits width n, IsDigit c := isDigit_fixedDigits
  have hread := readFixed_digits hdigits 0 (spelt behind)
  rw [length_fixedDigits, value_fixedDigits_of_lt h] at hread
  rwa [spelt_append]

/-! ### Fractions -/

/-- What is left without the trailing zeros, and how many there were. The number of them is needed
to fill them up again. -/
theorem exists_eq_append_zeros (cs : List Char) :
    ∃ count, cs = (cs.reverse.dropWhile (· == '0')).reverse ++ List.replicate count '0' := by
  have hzeros : cs.reverse.takeWhile (· == '0') =
      List.replicate (cs.reverse.takeWhile (· == '0')).length '0' :=
    List.eq_replicate_of_mem fun c hc => beq_iff_eq.mp (List.all_eq_true.mp List.all_takeWhile c hc)
  refine ⟨(cs.reverse.takeWhile (· == '0')).length, ?_⟩
  calc
    cs = (cs.reverse.takeWhile (· == '0') ++ cs.reverse.dropWhile (· == '0')).reverse := by
      rw [List.takeWhile_append_dropWhile, List.reverse_reverse]
    _ = (cs.reverse.dropWhile (· == '0')).reverse ++
        (cs.reverse.takeWhile (· == '0')).reverse := List.reverse_append
    _ = _ := by
      congr 1
      rw [hzeros, List.reverse_replicate, List.length_replicate]

/-- What cannot go on with a fraction: nothing, or a byte that is neither a digit nor a point.
Behind a fraction stands the offset, which begins with a sign or a letter. -/
def EndsFraction (rest : Bytes) : Prop :=
  ∀ b later, rest = b :: later → digit? b = none ∧ b ≠ 0x2e

/-- The values of digits are read from their bytes, and none is left out. -/
theorem filterMap_digit? {digits : List Char} (h : ∀ c ∈ digits, IsDigit c) :
    (spelt digits).filterMap digit? = digits.map fun c => c.toNat - 48 := by
  induction digits with
  | nil => rfl
  | cons c digits ih =>
    obtain ⟨hspelt, hdigit⟩ := (h c List.mem_cons_self).utf8EncodeChar
    rw [spelt, List.flatMap_cons, hspelt, List.singleton_append, List.filterMap_cons, hdigit,
      ih fun d hd => h d (List.mem_cons_of_mem c hd), List.map_cons]

/-- **Digits are all that is taken** of a fraction, as what stands behind it ends it. -/
theorem takeWhile_digit? {digits : List Char} (h : ∀ c ∈ digits, IsDigit c) {rest : Bytes}
    (hrest : EndsFraction rest) :
    (spelt digits ++ rest).takeWhile (fun b => (digit? b).isSome) = spelt digits := by
  induction digits with
  | nil =>
    cases rest with
    | nil => rfl
    | cons b later =>
      refine List.takeWhile_cons_of_neg ?_
      rw [(hrest b later rfl).1]
      exact Bool.false_ne_true
  | cons c digits ih =>
    obtain ⟨hspelt, hdigit⟩ := (h c List.mem_cons_self).utf8EncodeChar
    have hlater := ih fun d hd => h d (List.mem_cons_of_mem c hd)
    rw [spelt, List.flatMap_cons, hspelt, List.singleton_append, List.cons_append,
      List.takeWhile_cons_of_pos (by rw [hdigit]; rfl), hlater]

/-- **A fraction is read from its writing**, the zeros at its end filled up. -/
theorem readFraction_write {nanosecond : Nat} (h : nanosecond < 1000000000) {behind : List Char}
    (hbehind : EndsFraction (spelt behind)) :
    readFraction (spelt (writeFraction nanosecond ++ behind)) =
      some (nanosecond, spelt behind) := by
  rw [spelt_append]
  generalize spelt behind = rest at hbehind ⊢
  unfold writeFraction
  split
  · -- No fraction is written of a whole second, and none is read.
    next hzero =>
    subst hzero
    rw [spelt, List.flatMap_nil, List.nil_append]
    unfold readFraction
    split
    · next later => exact absurd rfl (hbehind _ later rfl).2
    · rfl
  next hpos =>
  -- Otherwise the zeros at the end of nine digits are left out.
  obtain ⟨count, hdigits⟩ := exists_eq_append_zeros (fixedDigits 9 nanosecond)
  generalize ((fixedDigits 9 nanosecond).reverse.dropWhile (· == '0')).reverse = kept at hdigits ⊢
  have hkept : ∀ c ∈ kept, IsDigit c := fun c hc =>
    isDigit_fixedDigits c (hdigits ▸ List.mem_append_left _ hc)
  have hlength : kept.length + count = 9 := by
    have hnine := congrArg List.length hdigits
    rw [length_fixedDigits, List.length_append, List.length_replicate] at hnine
    exact hnine.symm
  -- With the zeros filled up, the digits are those of the number again.
  have hvalue : ((kept.map (fun c : Char => c.toNat - 48) ++ List.replicate 9 0).take 9).foldl
      (fun n d => 10 * n + d) 0 = nanosecond := by
    have hfill : (kept.map (fun c : Char => c.toNat - 48) ++ List.replicate 9 0).take 9 =
        (fixedDigits 9 nanosecond).map fun c => c.toNat - 48 := by
      rw [hdigits, List.map_append, List.map_replicate, List.take_append, List.length_map,
        List.take_of_length_le (by rw [List.length_map]; omega), List.take_replicate,
        Nat.min_eq_left (by omega), ← hlength, Nat.add_sub_cancel_left]
      rfl
    rw [hfill, List.foldl_map]
    exact value_fixedDigits_of_lt h
  -- A number above zero has a digit that is kept.
  have hsome : (spelt kept).isEmpty = false := by
    cases kept with
    | nil => exact absurd hvalue.symm hpos
    | cons c kept =>
      rw [spelt, List.flatMap_cons, (hkept c List.mem_cons_self).utf8EncodeChar.1]
      rfl
  change readFraction (0x2e :: (spelt kept ++ rest)) = _
  simp only [readFraction, takeWhile_digit? hkept hbehind, hsome, Bool.false_eq_true, if_false,
    filterMap_digit? hkept, hvalue, List.drop_left]

/-! ### Offsets -/

/-- **Hours and minutes behind a sign.** There are two signs, and the second one makes the offset
negative. -/
theorem readOffset_signed (sign : UInt8) (hsign : (sign == 0x2b || sign == 0x2d) = true)
    {hours minutes : Nat} (hhours : hours < 24) (hminutes : minutes < 60) :
    readOffset (sign :: spelt (fixedDigits 2 hours ++ ':' :: fixedDigits 2 minutes)) =
      some (if sign == 0x2d then - (60 * hours + minutes : Int) else 60 * hours + minutes) := by
  have hfirst := readFixed_fixedDigits (show hours < 10 ^ 2 by omega) (':' :: fixedDigits 2 minutes)
  have hsecond := readFixed_fixedDigits (show minutes < 10 ^ 2 by omega) []
  have hcolon : readByte 0x3a (spelt (':' :: fixedDigits 2 minutes)) =
      some (spelt (fixedDigits 2 minutes)) := rfl
  rw [List.append_nil] at hsecond
  -- The text is longer than the one letter that stands for no offset.
  generalize spelt (fixedDigits 2 hours ++ ':' :: fixedDigits 2 minutes) = text at hfirst ⊢
  cases text with
  | nil => cases hfirst
  | cons b later =>
    unfold readOffset
    split
    · -- Of the reader's three cases only the one of a sign is possible.
      next heq => cases heq
    · next heq =>
      obtain ⟨rfl, rfl⟩ := List.cons.inj heq
      rw [if_pos hsign, hfirst]
      simp only [Option.bind_eq_bind, Option.bind_some, hcolon, hsecond]
      exact if_pos ⟨rfl, hhours, hminutes⟩
    · next heq => cases heq

/-- **An offset is read from its writing**, be it none, or in front of universal time, or behind
it. -/
theorem readOffset_write {offset : Int} (h : offset.natAbs < 1440) :
    readOffset (spelt (writeOffset offset)) = some offset := by
  have hhours : offset.natAbs / 60 < 24 := by omega
  have hminutes : offset.natAbs % 60 < 60 := by omega
  unfold writeOffset
  split
  · next hzero =>
    subst hzero
    rfl
  split
  · have hread := readOffset_signed 0x2d rfl hhours hminutes
    refine hread.trans (congrArg some ?_)
    rw [if_pos (by decide)]
    omega
  · have hread := readOffset_signed 0x2b rfl hhours hminutes
    refine hread.trans (congrArg some ?_)
    rw [if_neg (by decide)]
    omega

/-- An offset ends a fraction: it begins with its sign, or with the letter for none. -/
theorem endsFraction_writeOffset (offset : Int) : EndsFraction (spelt (writeOffset offset)) := by
  intro b later hcons
  unfold writeOffset at hcons
  split at hcons
  · obtain ⟨rfl, -⟩ := List.cons.inj (hcons : [0x5a] = b :: later)
    decide
  split at hcons
  · obtain ⟨rfl, -⟩ := List.cons.inj (hcons : 0x2d :: _ = b :: later)
    decide
  · obtain ⟨rfl, -⟩ := List.cons.inj (hcons : 0x2b :: _ = b :: later)
    decide

/-! ### The whole text -/

/-- A year of four digits. Others have no text, since the format has no place for a sign. -/
def HasFourDigitYear (t : Timestamp) : Prop :=
  0 ≤ t.date.year ∧ t.date.year ≤ 9999

/-- Exactly the timestamps of such a year have a text. -/
theorem isSome_write?_iff (t : Timestamp) : t.write?.isSome = true ↔ t.HasFourDigitYear := by
  rw [HasFourDigitYear]
  unfold write?
  split
  · next h => simp [h]
  · next h => simp [h]

/-- **A timestamp is read from its text.** The fields are read one after the other, each up to the
byte that parts it from the next, and then they are put together as they were. -/
theorem parse?_write? {t : Timestamp} {text : List Char} (h : t.write? = some text) :
    parse? (Bytes.ofText (String.ofList text)) = some t := by
  unfold write? at h
  split at h
  · next hrange =>
    obtain rfl := Option.some.inj h
    rw [Bytes.ofText_ofList]
    -- Every number fits into its digits.
    have hyear := readFixed_fixedDigits (show t.date.year.toNat < 10 ^ 4 by omega)
    have htwo : ∀ {n : Nat}, n < 100 → ∀ behind,
        readFixed 2 0 (spelt (fixedDigits 2 n ++ behind)) = some (n, spelt behind) :=
      fun h => readFixed_fixedDigits h
    have hmonth := htwo (n := t.date.month) (Nat.lt_of_le_of_lt t.date.month_le (by decide))
    have hday := htwo (n := t.date.day)
      (Nat.lt_of_le_of_lt (Nat.le_trans t.date.day_le (Date.daysInMonth_le _ _)) (by decide))
    have hhour := htwo (n := t.hour) (Nat.lt_trans t.hour_lt (by decide))
    have hminute := htwo (n := t.minute) (Nat.lt_trans t.minute_lt (by decide))
    have hsecond := htwo (n := t.second) (Nat.lt_trans t.second_lt (by decide))
    -- Between them there is one byte each.
    have hdash : ∀ behind, readByte 0x2d (spelt ('-' :: behind)) = some (spelt behind) :=
      fun _ => rfl
    have hcolon : ∀ behind, readByte 0x3a (spelt (':' :: behind)) = some (spelt behind) :=
      fun _ => rfl
    -- The parts are read one after the other: first the date,
    refine Option.bind_eq_some_iff.mpr ⟨_, hyear _, ?_⟩
    refine Option.bind_eq_some_iff.mpr ⟨_, hdash _, ?_⟩
    refine Option.bind_eq_some_iff.mpr ⟨_, hmonth _, ?_⟩
    refine Option.bind_eq_some_iff.mpr ⟨_, hdash _, ?_⟩
    refine Option.bind_eq_some_iff.mpr ⟨_, hday _, ?_⟩
    -- then any byte and the time of day,
    refine Option.bind_eq_some_iff.mpr ⟨_, rfl, ?_⟩
    refine Option.bind_eq_some_iff.mpr ⟨_, hhour _, ?_⟩
    refine Option.bind_eq_some_iff.mpr ⟨_, hcolon _, ?_⟩
    refine Option.bind_eq_some_iff.mpr ⟨_, hminute _, ?_⟩
    refine Option.bind_eq_some_iff.mpr ⟨_, hcolon _, ?_⟩
    refine Option.bind_eq_some_iff.mpr ⟨_, hsecond _, ?_⟩
    -- and last the fraction and the offset.
    refine Option.bind_eq_some_iff.mpr
      ⟨_, readFraction_write t.nanosecond_lt (endsFraction_writeOffset t.offset), ?_⟩
    refine Option.bind_eq_some_iff.mpr ⟨_, readOffset_write t.offset_lt, ?_⟩
    refine Option.bind_eq_some_iff.mpr ⟨t.date, ?_, ?_⟩
    · rw [Int.toNat_of_nonneg hrange.1, Date.ofNumbers?_self]
    rw [if_neg (Nat.ne_of_lt t.second_lt)]
    exact dif_pos ⟨t.hour_lt, t.minute_lt, t.second_lt, t.nanosecond_lt, t.offset_lt⟩
  · cases h

end Countersign.Timestamp
