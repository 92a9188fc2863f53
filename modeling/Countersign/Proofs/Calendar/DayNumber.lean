import Countersign.Calendar.Timestamp

/-!
# Days and seconds are counted without gaps

Every day number is that of exactly one date (`Date.exists_ofDayNumber?`,
`Date.ofDayNumber?_dayNumber`), and so every number of seconds within range is that of a moment in
universal time (`Timestamp.exists_ofUnixSeconds?`), and of no other one that shows whole seconds
(`Timestamp.ofUnixSeconds?_unixSeconds`).

An era of 400 years has 146097 days. Its years begin in March, the first of them on day 0. Where a
year begins and how long it is (`Date.yearStart`, `Date.yearLength`) is compared with the formula
that finds the year of a day at both ends of each of the 400 years; between them it can only grow
(`Date.plainDays_mono`). The months of a year are few enough to compare day by day.
-/

namespace Countersign.Date

/-! ### Years of an era -/

/-- The first day of a year in its era: 365 days for each year before it, and the leap days among
them. -/
def yearStart (year : Nat) : Nat :=
  365 * year + year / 4 - year / 100

/-- The number of days of a year that begins in March. Its leap day is that of the next calendar
year, and is its last day. -/
def yearLength (year : Nat) : Nat :=
  if isLeapYear (year + 1) then 366 else 365

/-- The days of an era up to a day, its leap days left out. Divided by 365 this is the year of the
day. -/
def plainDays (day : Nat) : Nat :=
  day - day / 1460 + day / 36524 - day / 146096

/-- The count grows with the day, so a year is found all through if it is found at both of its
ends. -/
theorem plainDays_mono {day day' : Nat} (h : day ≤ day') : plainDays day ≤ plainDays day' := by
  have hera : ∀ n, n / 146096 = n / 36524 / 4 := fun n => (Nat.div_div_eq_div_mul n 36524 4).symm
  rw [plainDays, plainDays, hera, hera]
  omega

/-- At both ends of a year the formula finds the year. There are 400 years in an era, and each of
them is computed. -/
theorem plainDays_ends : ∀ year < 400, 365 * year ≤ plainDays (yearStart year) ∧
    plainDays (yearStart year + (yearLength year - 1)) < 365 * (year + 1) := by
  decide +kernel

/-- The formula finds the year of each day, also of those between the ends. -/
theorem plainDays_div {year day : Nat} (hyear : year < 400) (hday : day < yearLength year) :
    plainDays (yearStart year + day) / 365 = year := by
  obtain ⟨hfirst, hlast⟩ := plainDays_ends year hyear
  have hlow := plainDays_mono (Nat.le_add_right (yearStart year) day)
  have hhigh := plainDays_mono
    (show yearStart year + day ≤ yearStart year + (yearLength year - 1) by omega)
  omega

/-- A year begins where the one before it ends, so no day is left between two years. -/
theorem yearStart_succ : ∀ year < 399, yearStart (year + 1) = yearStart year + yearLength year := by
  decide +kernel

/-- No year reaches over the end of the era. -/
theorem yearEnd_le : ∀ year < 400, yearStart year + yearLength year ≤ 146097 := by
  decide +kernel

/-- **Every day of an era is in one of its years**: in the one whose start is the last before it. -/
theorem exists_year {day : Nat} (h : day < 146097) :
    ∃ year < 400, ∃ dayOfYear < yearLength year, day = yearStart year + dayOfYear := by
  have hlast : yearStart 399 + yearLength 399 = 146097 := by decide
  -- On the years from the last one back: the first of them that begins early enough.
  have hback : ∀ year < 400, day < yearStart year + yearLength year →
      ∃ year < 400, ∃ dayOfYear < yearLength year, day = yearStart year + dayOfYear := by
    intro year
    induction year with
    | zero =>
      have hstart : yearStart 0 = 0 := by decide
      intro hyear hday
      exact ⟨0, hyear, day, by omega, by omega⟩
    | succ year ih =>
      intro hyear hday
      by_cases hbegun : yearStart (year + 1) ≤ day
      · exact ⟨year + 1, hyear, day - yearStart (year + 1), by omega, by omega⟩
      · have hbefore := yearStart_succ year (by omega)
        exact ih (by omega) (by omega)
  exact hback 399 (by decide) (by omega)

/-! ### Months of a year -/

/-- The first day of a month in a year that begins in March. From there on every five months have
153 days, which is where the formula comes from. -/
def monthStart (month : Nat) : Nat :=
  (153 * month + 2) / 5

/-- A month of the calendar, counted from March on. -/
def monthFromMarch (month : Nat) : Nat :=
  if month ≤ 2 then month + 9 else month - 3

/-- A month from March on, in the calendar. -/
def monthOfCalendar (month : Nat) : Nat :=
  if month < 10 then month + 3 else month - 9

/-- The number of days of a month, by whether its year has a leap day. This is the table that the
formulas are compared with. -/
def monthLength (leap : Bool) (month : Nat) : Nat :=
  if month = 2 then if leap then 29 else 28
  else if month = 4 ∨ month = 6 ∨ month = 9 ∨ month = 11 then 30
  else 31

/-- The month of a day of a year, counted from March on, as the formula computes it. -/
def monthOfDay (day : Nat) : Nat :=
  (5 * day + 2) / 153

/-- The months from March on are those of the calendar, one for one. -/
theorem monthOfCalendar_monthFromMarch : ∀ month < 13, 1 ≤ month →
    monthFromMarch month < 12 ∧ monthOfCalendar (monthFromMarch month) = month := by
  decide

theorem monthFromMarch_monthOfCalendar : ∀ month < 12, 1 ≤ monthOfCalendar month ∧
    monthOfCalendar month ≤ 12 ∧ monthFromMarch (monthOfCalendar month) = month := by
  decide

/-- The month of each day of a month is this month. All days of both kinds of years are compared one
by one. -/
theorem monthOfDay_add : ∀ leap : Bool, ∀ month < 12, ∀ day < 31,
    day < monthLength leap (monthOfCalendar month) →
      monthStart month + day < (if leap then 366 else 365) ∧
        monthOfDay (monthStart month + day) = month := by
  decide +kernel

/-- Each day of a year is one of its month, as the table has them. -/
theorem monthOfDay_spec : ∀ leap : Bool, ∀ day < 366, day < (if leap then 366 else 365) →
    monthOfDay day < 12 ∧ monthStart (monthOfDay day) ≤ day ∧
      day - monthStart (monthOfDay day) < monthLength leap (monthOfCalendar (monthOfDay day)) := by
  decide +kernel

/-! ### Dates -/

/-- No month is longer than 31 days, which bounds the comparison above. -/
theorem daysInMonth_le (year : Int) (month : Nat) : daysInMonth year month ≤ 31 := by
  unfold daysInMonth
  split <;> split <;> decide

/-- A date is found by its numbers. -/
theorem ofNumbers?_self (date : Date) : ofNumbers? date.year date.month date.day = some date :=
  dif_pos ⟨date.month_pos, date.month_le, date.day_pos, date.day_le⟩

/-- The year that began in March, last before a date. -/
def marchYear (date : Date) : Int :=
  if date.month ≤ 2 then date.year - 1 else date.year

/-- Leap years come again in every era, as 400 years are a full round of the rule. -/
theorem isLeapYear_add_era (era : Int) (year : Nat) :
    isLeapYear (era * 400 + year + 1) = isLeapYear (year + 1) := by
  have h4 : (era * 400 + year + 1) % 4 = ((year : Int) + 1) % 4 := by omega
  have h100 : (era * 400 + year + 1) % 100 = ((year : Int) + 1) % 100 := by omega
  have h400 : (era * 400 + year + 1) % 400 = ((year : Int) + 1) % 400 := by omega
  rw [isLeapYear, isLeapYear, h4, h100, h400]

/-- Only the leap day depends on the year, and it belongs to the year that began in March before. -/
theorem daysInMonth_of_marchYear {year : Int} {month : Nat} (marchYear : Int)
    (h : year = if month ≤ 2 then marchYear + 1 else marchYear) :
    daysInMonth year month = monthLength (isLeapYear (marchYear + 1)) month := by
  by_cases hmonth : month ≤ 2
  · rw [if_pos hmonth] at h
    rw [h]
    rfl
  · have hother : month ≠ 2 := by omega
    rw [daysInMonth, monthLength, if_neg hother, if_neg hother]

/-- **The date of a day of an era.** The reader's formulas, which are about integers, are those
above about natural numbers; what they compute is then known. -/
theorem ofDayNumber?_eq (era : Int) {year day : Nat} (hyear : year < 400)
    (hday : day < yearLength year) :
    ofDayNumber? (era * 146097 + (yearStart year + day : Nat) - 719468) =
      ofNumbers?
        (if monthOfCalendar (monthOfDay day) ≤ 2 then era * 400 + year + 1 else era * 400 + year)
        (monthOfCalendar (monthOfDay day)) (day - monthStart (monthOfDay day) + 1) := by
  obtain ⟨-, hstart, -⟩ := monthOfDay_spec (isLeapYear (year + 1)) day
    (Nat.lt_of_lt_of_le hday (by unfold yearLength; split <;> decide)) hday
  have hend := yearEnd_le year hyear
  -- The era and the day in it come apart, then the year, and then the month.
  have hera : (era * 146097 + ((yearStart year + day : Nat) : Int) - 719468 + 719468) / 146097 =
      era := by omega
  have hday' : (era * 146097 + ((yearStart year + day : Nat) : Int) - 719468 + 719468) % 146097 =
      ((yearStart year + day : Nat) : Int) := by omega
  have hfound := plainDays_div hyear hday
  -- From here on each formula about integers is computed from the one above it.
  have hyear' : (((yearStart year + day : Nat) : Int) -
      ((yearStart year + day : Nat) : Int) / 1460 + ((yearStart year + day : Nat) : Int) / 36524 -
        ((yearStart year + day : Nat) : Int) / 146096) / 365 = year := by
    rw [plainDays] at hfound
    omega
  have hdayOfYear : ((yearStart year + day : Nat) : Int) -
      (365 * (year : Int) + (year : Int) / 4 - (year : Int) / 100) = day := by
    rw [yearStart]
    omega
  have hmonth : (5 * (day : Int) + 2) / 153 = (monthOfDay day : Nat) := by
    rw [monthOfDay]
    omega
  have hcalendar : (if ((monthOfDay day : Nat) : Int) < 10 then ((monthOfDay day : Nat) : Int) + 3
      else ((monthOfDay day : Nat) : Int) - 9) = (monthOfCalendar (monthOfDay day) : Nat) := by
    unfold monthOfCalendar
    split <;> split <;> omega
  have hdayOfMonth : ((day : Int) - (153 * ((monthOfDay day : Nat) : Int) + 2) / 5 + 1).toNat =
      day - monthStart (monthOfDay day) + 1 := by
    rw [monthStart] at hstart ⊢
    omega
  -- January and February belong to the calendar year behind the one that began in March.
  have hwhen : ∀ month : Nat, (if (month : Int) ≤ 2 then (year : Int) + era * 400 + 1
      else (year : Int) + era * 400) =
        if month ≤ 2 then era * 400 + year + 1 else era * 400 + year := by
    intro month
    split <;> split <;> omega
  rw [ofDayNumber?]
  simp only [hera, hday', hyear', hdayOfYear, hmonth, hcalendar, hdayOfMonth, hwhen,
    Int.toNat_natCast]

/-- The number of a date is that of its day in its era. The 719468 days are those from the first day
of an era to the epoch. -/
theorem dayNumber_eq (date : Date) :
    date.dayNumber = date.marchYear / 400 * 146097 +
      (yearStart (date.marchYear % 400).toNat +
        (monthStart (monthFromMarch date.month) + (date.day - 1)) : Nat) - 719468 := by
  have hmonth := date.month_pos
  have hday := date.day_pos
  rw [dayNumber, yearStart, monthStart, monthFromMarch, marchYear]
  split <;> omega

/-- **A date is given back by its number.** So no two dates have the same number. -/
theorem ofDayNumber?_dayNumber (date : Date) : ofDayNumber? date.dayNumber = some date := by
  obtain ⟨hmonth, hcalendar⟩ := monthOfCalendar_monthFromMarch date.month
    (Nat.lt_succ_of_le date.month_le) date.month_pos
  have hyear : date.year = if date.month ≤ 2 then date.marchYear + 1 else date.marchYear := by
    unfold marchYear
    split <;> omega
  have hera : date.marchYear / 400 * 400 + ((date.marchYear % 400).toNat : Int) =
      date.marchYear := by omega
  -- The month has its days from the table, by the leap day of its own year in the era.
  have hleap : isLeapYear (date.marchYear + 1) =
      isLeapYear (((date.marchYear % 400).toNat : Int) + 1) := by
    rw [← isLeapYear_add_era (date.marchYear / 400), hera]
  have hlength := date.day_le
  rw [daysInMonth_of_marchYear date.marchYear hyear, hleap] at hlength
  have hpos := date.day_pos
  have hday : date.day - 1 < 31 := by
    have hle := date.day_le
    have hmax := daysInMonth_le date.year date.month
    omega
  -- So the day is one of the year, and the formula finds its month.
  obtain ⟨hin, hfound⟩ := monthOfDay_add
    (isLeapYear (((date.marchYear % 400).toNat : Int) + 1)) (monthFromMarch date.month) hmonth
    (date.day - 1) hday (by rw [hcalendar]; omega)
  rw [dayNumber_eq, ofDayNumber?_eq _ (by omega) hin, hfound, hcalendar, hera,
    Nat.add_sub_cancel_left, Nat.sub_add_cancel hpos, ← hyear, ofNumbers?_self]

/-- **Every number is that of a date.** The date is put together from the year and the month of the
day, and it is one because the day is in the month. -/
theorem exists_ofDayNumber? (n : Int) :
    ∃ date, ofDayNumber? n = some date ∧ date.dayNumber = n := by
  -- The day in its era, of which the year and the day in the year are known.
  have hinEra : ((n + 719468) % 146097).toNat < 146097 := by omega
  obtain ⟨year, hyear, day, hday, hera⟩ := exists_year hinEra
  have hn : n = (n + 719468) / 146097 * 146097 + ((yearStart year + day : Nat) : Int) - 719468 := by
    omega
  generalize (n + 719468) / 146097 = era at hn
  obtain ⟨hmonth, hstart, hlength⟩ := monthOfDay_spec (isLeapYear (year + 1)) day
    (Nat.lt_of_lt_of_le hday (by unfold yearLength; split <;> decide)) hday
  obtain ⟨hpos, hle, hback⟩ := monthFromMarch_monthOfCalendar (monthOfDay day) hmonth
  have hfound := ofDayNumber?_eq era hyear hday
  rw [← hn] at hfound
  generalize monthOfCalendar (monthOfDay day) = month at hlength hpos hle hback hfound
  -- The year is that of the calendar, and it has the day.
  obtain ⟨civil, hcivil⟩ :
      ∃ civil, civil = if month ≤ 2 then era * 400 + year + 1 else era * 400 + (year : Int) :=
    ⟨_, rfl⟩
  rw [← hcivil] at hfound
  rw [← isLeapYear_add_era era, ← daysInMonth_of_marchYear _ hcivil] at hlength
  refine ⟨⟨civil, month, day - monthStart (monthOfDay day) + 1, hpos, hle, by omega, hlength⟩,
    hfound.trans (dif_pos ⟨hpos, hle, by omega, hlength⟩), ?_⟩
  -- Its number is put together again from the same parts.
  have hmarch : (if month ≤ 2 then civil - 1 else civil) = era * 400 + year := by
    rw [hcivil]
    split <;> omega
  have hera' : (era * 400 + (year : Int)) / 400 = era := by omega
  have hyear' : ((era * 400 + (year : Int)) % 400).toNat = year := by omega
  have hday' : monthStart (monthOfDay day) + (day - monthStart (monthOfDay day)) = day := by omega
  rw [dayNumber_eq]
  simp only [marchYear, hmarch, hback, hera', hyear', Nat.add_sub_cancel, hday']
  exact hn.symm

end Countersign.Date

namespace Countersign.Timestamp

/-! ### Moments -/

/-- A number of seconds that is counted: its year is one from -9999 to 9999. -/
def InRange (n : Int) : Prop :=
  firstUnixSecond ≤ n ∧ n ≤ lastUnixSecond

instance : DecidablePred InRange := fun n =>
  inferInstanceAs (Decidable (firstUnixSecond ≤ n ∧ n ≤ lastUnixSecond))

/-- Every number of seconds within range is that of a moment in universal time that shows whole
seconds. The day is the quotient by 86400, and the time of day is the remainder. -/
theorem exists_ofUnixSeconds? {n : Int} (h : InRange n) : ∃ t, ofUnixSeconds? n = some t ∧
    t.unixSeconds = n ∧ t.nanosecond = 0 ∧ t.offset = 0 := by
  obtain ⟨date, hdate, hnumber⟩ := Date.exists_ofDayNumber? (n / 86400)
  have hsome : ofUnixSeconds? n = some ⟨date, (n % 86400).toNat / 3600,
      (n % 86400).toNat % 3600 / 60, (n % 86400).toNat % 60, 0, 0, by omega, by omega, by omega,
      by decide, by decide⟩ := by
    rw [ofUnixSeconds?, hdate]
    exact if_pos h
  refine ⟨_, hsome, ?_, rfl, rfl⟩
  rw [unixSeconds, hnumber]
  simp only
  omega

theorem ofUnixSeconds?_eq_none_iff {n : Int} : ofUnixSeconds? n = none ↔ ¬ InRange n := by
  constructor
  · intro hnone h
    obtain ⟨t, hsome, -⟩ := exists_ofUnixSeconds? h
    rw [hnone] at hsome
    cases hsome
  · exact fun h => if_neg h

/-- What is counted in seconds is within range, and counts as many. -/
theorem of_ofUnixSeconds? {n : Int} {t : Timestamp} (h : ofUnixSeconds? n = some t) :
    InRange n ∧ t.unixSeconds = n ∧ t.nanosecond = 0 ∧ t.offset = 0 := by
  have hrange : InRange n := Decidable.of_not_not fun hout => by
    rw [ofUnixSeconds?_eq_none_iff.mpr hout] at h
    cases h
  obtain ⟨t', hsome, ht'⟩ := exists_ofUnixSeconds? hrange
  rw [h] at hsome
  obtain rfl := Option.some.inj hsome
  exact ⟨hrange, ht'⟩

/-- A moment in universal time that shows whole seconds is given back by their number. -/
theorem ofUnixSeconds?_unixSeconds {t : Timestamp} (hrange : InRange t.unixSeconds)
    (hnanosecond : t.nanosecond = 0) (hoffset : t.offset = 0) :
    ofUnixSeconds? t.unixSeconds = some t := by
  obtain ⟨date, hour, minute, second, nanosecond, offset, hhour, hminute, hsecond, _, _⟩ := t
  dsimp only at hnanosecond hoffset
  subst hnanosecond hoffset
  have hday : (date.dayNumber * 86400 + hour * 3600 + minute * 60 + second - 0 * 60) / 86400 =
      date.dayNumber := by omega
  refine (if_pos hrange).trans ?_
  simp only [unixSeconds, hday, Date.ofDayNumber?_dayNumber, Option.map_some, Option.some.injEq,
    mk.injEq, true_and, and_true]
  omega

end Countersign.Timestamp
