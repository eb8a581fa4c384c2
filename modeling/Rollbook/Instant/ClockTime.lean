import Rollbook.Instant.Written
/-
  Rollbook.Instant.ClockTime — times as a clock keeps them.

  A clock counts the seconds of a minute from 0 to 59 and keeps a fraction beside them.
  Inside a leap second it does not count on, and the fraction goes up to two seconds; it
  may be set so at any second. The text shows a fraction that is over as one second more.
  At second 59 this is the second 60, which is an instant of its own. Anywhere else it
  is the second that follows, as if there had been no leap second.

  So a clock keeps more times than texts name. Those that are named are kept as one
  instant each (`shown_clockTime`, `clockTime_shown_iff`), and any other is shown as an
  instant that is kept in another way.
-/

namespace Rollbook

namespace Civil

/-- The fields as they are shown: a fraction that is over is a second more. -/
def shown (c : Civil) : Civil :=
  { c with second := c.second + c.nano / 1000000000, nano := c.nano % 1000000000 }

/-- The fields as a clock keeps them, which knows no second 60. -/
def kept (c : Civil) : Civil :=
  if c.second = 60 then { c with second := 59, nano := c.nano + 1000000000 } else c

theorem second_kept {c : Civil} (h : c.Valid) : c.kept.second < 60 := by
  have hsecond := h.second
  unfold kept
  split
  · show 59 < 60
    decide
  · omega

theorem nano_kept {c : Civil} (h : c.Valid) : c.kept.nano < 2000000000 := by
  have hnano := h.nano
  unfold kept
  split
  · show c.nano + 1000000000 < 2000000000
    omega
  · omega

theorem shown_kept {c : Civil} (h : c.Valid) : c.kept.shown = c := by
  have hnano := h.nano
  obtain ⟨year, month, day, hour, minute, second, nano⟩ := c
  unfold kept shown
  split
  · rename_i hleap
    simp only [mk.injEq, true_and] at hleap hnano ⊢
    omega
  · simp only [mk.injEq, true_and] at hnano ⊢
    omega

/-- What is shown is kept as it was unless it was a leap second within the minute. -/
theorem kept_shown_iff {c : Civil} (hsecond : c.second < 60) (hnano : c.nano < 2000000000) :
    c.shown.kept = c ↔ c.nano < 1000000000 ∨ c.second = 59 := by
  obtain ⟨year, month, day, hour, minute, second, nano⟩ := c
  unfold kept shown
  simp only at hsecond hnano ⊢
  split
  · simp only [mk.injEq, true_and]
    omega
  · simp only [mk.injEq, true_and]
    omega

end Civil

/-- A time as a clock keeps it. -/
structure ClockTime extends Civil where
  second_lt : second < 60
  nano_lt : nano < 2000000000
  valid : toCivil.shown.Valid
  deriving DecidableEq

/-- The instant as a clock keeps it. -/
def Instant.clockTime (t : Instant) : ClockTime where
  toCivil := t.toCivil.kept
  second_lt := Civil.second_kept t.valid
  nano_lt := Civil.nano_kept t.valid
  valid := by
    rw [Civil.shown_kept t.valid]
    exact t.valid

namespace ClockTime

/-- The instant that is shown. -/
def shown (c : ClockTime) : Instant := ⟨c.toCivil.shown, c.valid⟩

/-- The text in events and answers. -/
def written (c : ClockTime) : String := c.shown.written

/-- The time is in no leap second, or in one at the end of its minute. -/
def Named (c : ClockTime) : Prop := c.nano < 1000000000 ∨ c.second = 59

instance (c : ClockTime) : Decidable c.Named := inferInstanceAs (Decidable (_ ∨ _))

theorem shown_clockTime (t : Instant) : t.clockTime.shown = t := by
  unfold shown Instant.clockTime
  simp only [Civil.shown_kept t.valid]

theorem clockTime_shown_iff (c : ClockTime) : c.shown.clockTime = c ↔ c.Named := by
  refine Iff.trans ?_ (Civil.kept_shown_iff c.second_lt c.nano_lt)
  constructor
  · exact congrArg toCivil
  · intro h
    cases c
    unfold Instant.clockTime shown
    simp only at h ⊢
    simp only [h]

theorem named_clockTime (t : Instant) : t.clockTime.Named := by
  rw [← clockTime_shown_iff, shown_clockTime]

end ClockTime

end Rollbook
