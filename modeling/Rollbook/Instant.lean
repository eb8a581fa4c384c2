/-
  Rollbook.Instant — points in time on the UTC calendar.

  An instant is a date of the proleptic Gregorian calendar and a time of day to
  the nanosecond. The calendar runs from the first day of the year -262143 to
  the last of 262142. A leap second is the second 60 of its minute; it may stand
  in any minute, since the calendar keeps no table of the announced ones. These
  are the times that texts name; a clock keeps others too (`ClockTime`).

  Instants are ordered field by field, which puts a leap second after the
  second 59 of its minute and before the next minute.
-/

namespace Rollbook

/-- A year that has a 29th of February. -/
def isLeapYear (year : Int) : Bool :=
  year % 4 = 0 && (year % 100 ≠ 0 || year % 400 = 0)

def daysInMonth (year : Int) (month : Nat) : Nat :=
  if month = 2 then (if isLeapYear year then 29 else 28)
  else if month = 4 || month = 6 || month = 9 || month = 11 then 30
  else 31

/-- The fields of a date and a time of day, whether or not the calendar has them. -/
structure Civil where
  year : Int
  month : Nat
  day : Nat
  hour : Nat
  minute : Nat
  second : Nat
  nano : Nat
  deriving DecidableEq, Repr

namespace Civil

/-- The calendar has this date and the day has this time. -/
structure Valid (c : Civil) : Prop where
  first_year : -262143 ≤ c.year
  last_year : c.year ≤ 262142
  first_month : 1 ≤ c.month
  last_month : c.month ≤ 12
  first_day : 1 ≤ c.day
  last_day : c.day ≤ daysInMonth c.year c.month
  hour : c.hour < 24
  minute : c.minute < 60
  second : c.second ≤ 60
  nano : c.nano < 1000000000

theorem valid_iff (c : Civil) : c.Valid ↔
    (-262143 ≤ c.year ∧ c.year ≤ 262142) ∧ (1 ≤ c.month ∧ c.month ≤ 12) ∧
    (1 ≤ c.day ∧ c.day ≤ daysInMonth c.year c.month) ∧
    (c.hour < 24 ∧ c.minute < 60 ∧ c.second ≤ 60 ∧ c.nano < 1000000000) :=
  ⟨fun h => ⟨⟨h.1, h.2⟩, ⟨h.3, h.4⟩, ⟨h.5, h.6⟩, h.7, h.8, h.9, h.10⟩,
   fun ⟨⟨a, b⟩, ⟨c, d⟩, ⟨e, f⟩, g, h, i, j⟩ => ⟨a, b, c, d, e, f, g, h, i, j⟩⟩

instance (c : Civil) : Decidable c.Valid := decidable_of_iff' _ (valid_iff c)

/-! ## Counting days -/

/-- The number of a date's day, counted from the first of January 1970. Years are taken to begin
    in March, so that the leap day is the last of its year. -/
def dayNumber (year : Int) (month day : Nat) : Int :=
  let y := if month ≤ 2 then year - 1 else year
  let m : Int := if month ≤ 2 then month + 9 else month - 3
  let era := y / 400
  let yearOfEra := y % 400
  let dayOfYear := (153 * m + 2) / 5 + day - 1
  era * 146097 + (yearOfEra * 365 + yearOfEra / 4 - yearOfEra / 100 + dayOfYear) - 719468

/-- The year, month and day of a day's number. -/
def dateOf (number : Int) : Int × Nat × Nat :=
  let n := number + 719468
  let era := n / 146097
  let dayOfEra := n % 146097
  let yearOfEra := (dayOfEra - dayOfEra / 1460 + dayOfEra / 36524 - dayOfEra / 146096) / 365
  let dayOfYear := dayOfEra - (365 * yearOfEra + yearOfEra / 4 - yearOfEra / 100)
  let m := (5 * dayOfYear + 2) / 153
  let day := dayOfYear - (153 * m + 2) / 5 + 1
  let month := if m < 10 then m + 3 else m - 9
  let year := yearOfEra + era * 400
  (if month ≤ 2 then year + 1 else year, month.toNat, day.toNat)

/-- The whole minutes before `c`, counted from the beginning of 1970. -/
def minuteNumber (c : Civil) : Int :=
  (dayNumber c.year c.month c.day * 24 + c.hour) * 60 + c.minute

/-- The fields of a minute's number, with the given second and nanosecond in it. -/
def ofMinuteNumber (number : Int) (second nano : Nat) : Civil :=
  let date := dateOf (number / 1440)
  let rest := (number % 1440).toNat
  ⟨date.1, date.2.1, date.2.2, rest / 60, rest % 60, second, nano⟩

end Civil

/-- A point in time. -/
structure Instant extends Civil where
  valid : toCivil.Valid
  deriving DecidableEq

namespace Instant

/-- The instant with these fields, if the calendar has it. -/
def ofCivil? (c : Civil) : Option Instant :=
  if h : c.Valid then some ⟨c, h⟩ else none

/-- Field by field, the year first. -/
def order (a b : Instant) : Ordering :=
  (compare a.year b.year).then <|
  (compare a.month b.month).then <|
  (compare a.day b.day).then <|
  (compare a.hour b.hour).then <|
  (compare a.minute b.minute).then <|
  (compare a.second b.second).then (compare a.nano b.nano)

instance : Ord Instant := ⟨order⟩

instance : LE Instant := ⟨fun a b => (order a b).isLE = true⟩

instance (a b : Instant) : Decidable (a ≤ b) := inferInstanceAs (Decidable (_ = true))

end Instant

end Rollbook
