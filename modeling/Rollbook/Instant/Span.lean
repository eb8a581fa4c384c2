import Rollbook.Instant
/-
  Rollbook.Instant.Span — lengths of time, and moving an instant by one.

  A span is a whole number of seconds and a count of nanoseconds after it, and is
  at most 2^63 - 1 milliseconds long either way.

  Moving treats a leap second as the second after 59 that lasts as long as the
  instant stays in it: a move that leaves it forwards counts as starting from
  second 59, one that leaves it backwards as starting from the second after.
  A move that would leave the calendar has no result.
-/

namespace Rollbook

structure Span where
  seconds : Int
  nanos : Nat
  deriving DecidableEq, Repr

namespace Span

/-- The longest span, in nanoseconds. -/
def longest : Int := 9223372036854775807 * 1000000

def ofParts? (seconds : Int) (nanos : Nat) : Option Span :=
  let total := seconds * 1000000000 + nanos
  if nanos < 1000000000 ∧ -longest ≤ total ∧ total ≤ longest then some ⟨seconds, nanos⟩ else none

/-- The whole seconds of a span, rounded towards zero. -/
def wholeSeconds (d : Span) : Int :=
  if d.seconds < 0 ∧ 0 < d.nanos then d.seconds + 1 else d.seconds

/-- What the whole seconds leave over, with the sign of the span. -/
def subSecond (d : Span) : Int :=
  if d.seconds < 0 ∧ 0 < d.nanos then d.nanos - 1000000000 else d.nanos

end Span

namespace Instant

/-- The seconds of the day before `t`; a leap second counts as the one before it. -/
def secondOfDay (t : Instant) : Int :=
  (t.hour * 60 + t.minute) * 60 + min t.second 59

/-- The nanoseconds since `secondOfDay`, a whole second more inside a leap second. -/
def fraction (t : Instant) : Int :=
  if t.second = 60 then t.nano + 1000000000 else t.nano

/-- The fields `seconds` after the start of a day; a fraction of a second or more is a leap second. -/
def civilAt (day seconds fraction : Int) : Civil :=
  let date := Civil.dateOf (day + seconds / 86400)
  let s := (seconds % 86400).toNat
  if fraction < 1000000000 then
    ⟨date.1, date.2.1, date.2.2, s / 3600, s / 60 % 60, s % 60, fraction.toNat⟩
  else
    ⟨date.1, date.2.1, date.2.2, s / 3600, s / 60 % 60, 60, (fraction - 1000000000).toNat⟩

/-- The instant a span after `t`, if the calendar reaches that far. -/
def add? (t : Instant) (d : Span) : Option Instant :=
  let day := Civil.dayNumber t.year t.month t.day
  let whole := d.wholeSeconds
  let part := d.subSecond
  let leap := 1000000000 ≤ t.fraction
  if leap ∧ ¬(0 < whole ∨ (0 < part ∧ 2000000000 - part ≤ t.fraction)) ∧ ¬whole < 0 then
    ofCivil? (civilAt day t.secondOfDay (t.fraction + part))
  else
    let start :=
      if ¬leap then (t.secondOfDay, t.fraction)
      else if whole < 0 then (t.secondOfDay + 1, t.fraction - 1000000000)
      else (t.secondOfDay, t.fraction - 1000000000)
    let total := start.2 + part
    let carry := total / 1000000000
    ofCivil? (civilAt day (start.1 + whole + carry) (total % 1000000000))

end Instant

end Rollbook
