import Rollbook.Id
import Rollbook.Instant
import Rollbook.Role
import Rollbook.Status
/-
  Rollbook.Event — what is recorded in an attendance log.

  A log is a list of events and is only ever appended to. A correction request
  records the standing under which it was filed (`Grant`): a tier of roles and a
  rank in it. A review is judged against that record and not against the roles
  the requester holds by then.
-/

namespace Rollbook

/-- The ladder of roles under which a correction was filed. -/
inductive Tier where
  | course
  | system
  deriving DecidableEq, Repr

instance : Labelled Tier where
  all := [.course, .system]
  label
    | .course => "COURSE"
    | .system => "SYSTEM"

/-- The standing of a requester when the request was filed. -/
structure Grant where
  tier : Tier
  rank : UInt8
  deriving DecidableEq, Repr

/-- A request to change a status, as it was filed. -/
structure Request where
  time : Instant
  current : Status
  wanted : Status
  reason : String
  requester : MemberId
  grant : Grant
  deriving DecidableEq

inductive Event where
  | checkedIn (time : Instant)
  | checkedOut (time : Instant)
  | requested (request : Request)
  /-- A pending request was approved and the status replaced. -/
  | corrected (time : Instant) (previous new : Status) (reason : String) (reviewer : MemberId)
  /-- A pending request was turned down. -/
  | rejected (time : Instant) (reason : String) (reviewer : MemberId)
  deriving DecidableEq

namespace Event

/-- The word kept beside an event in a table. -/
def kind : Event → String
  | .checkedIn .. => "checked_in"
  | .checkedOut .. => "checked_out"
  | .requested .. => "correction_requested"
  | .corrected .. => "status_corrected"
  | .rejected .. => "correction_rejected"

def time : Event → Instant
  | .checkedIn t | .checkedOut t | .corrected t .. | .rejected t .. => t
  | .requested r => r.time

end Event

end Rollbook
