import Rollbook.Event.Payload
import Rollbook.Instant.ClockTime
/-
  Rollbook.Event.Clocked — events with their times as a clock keeps them.

  An event is recorded at the time of a clock, and a clock keeps more times than texts
  name. The text of the event shows the instant that the clock shows, and whoever reads
  it has no other.
-/

namespace Rollbook.Event

/-- An event, and its time as the clock has kept it. -/
structure Clocked where
  event : Event
  time : ClockTime
  shown : time.shown = event.time
  deriving DecidableEq

namespace Clocked

/-- An event as it is read from a text. -/
def ofEvent (e : Event) : Clocked := ⟨e, e.time.clockTime, ClockTime.shown_clockTime e.time⟩

/-- The compact text of the event. -/
def payload (e : Clocked) : String := e.event.payload

/-- Reads the text of exactly one event. -/
def ofPayload? (s : String) : Option Clocked := (Event.ofPayload? s).map ofEvent

/-- The first field is the time as it is shown. -/
theorem head?_fields (e : Clocked) : e.event.fields.head? = some ("at", .text e.time.written) := by
  unfold ClockTime.written
  rw [e.shown]
  cases e.event <;> rfl

end Clocked

end Rollbook.Event
