import Rollbook.Event
import Rollbook.Failure
/-
  Rollbook.Record — the attendance of one member in one session.

  A record is a log and what goes with it: how many of its events are stored
  (`persisted`), how often it was stored (`version`, which a store compares on
  the next append) and the running state of the status fold (`standing`).

  The status is a fold over the log. `derived` follows the check-ins; an approved
  correction overrides it until the next check-in or check-out. Whether the
  member is checked in and whether a correction is pending are read off the end
  of the log.
-/

namespace Rollbook

/-! ## The status of a log -/

/-- The running state of the status fold. -/
structure Standing where
  derived : Status
  override : Option Status
  deriving DecidableEq, Repr

namespace Standing

def initial : Standing := ⟨.absent, none⟩

def apply (s : Standing) : Event → Standing
  | .checkedIn _ => ⟨.present, none⟩
  | .checkedOut _ => { s with override := none }
  | .corrected _ _ new _ _ => { s with override := some new }
  | .requested _ | .rejected .. => s

def status (s : Standing) : Status := s.override.getD s.derived

/-- The state after a whole log. -/
def ofLog (log : List Event) : Standing := log.foldl apply initial

end Standing

/-- The status of a log, folded from its beginning. -/
def foldStatus (log : List Event) : Status := (Standing.ofLog log).status

/-! ## Reading the end of a log -/

inductive Correction where
  | idle
  | pending (request : Request)
  deriving DecidableEq

namespace Correction

def isIdle : Correction → Bool
  | .idle => true
  | .pending _ => false

/-- The correction state of a log given from its last event backwards. -/
def ofReversed : List Event → Correction
  | [] => .idle
  | .corrected .. :: _ | .rejected .. :: _ => .idle
  | .requested r :: _ => .pending r
  | .checkedIn _ :: log | .checkedOut _ :: log => ofReversed log

def ofLog (log : List Event) : Correction := ofReversed log.reverse

end Correction

/-- Whether the last check-in is still open, for a log given from its last event backwards. -/
def openReversed : List Event → Bool
  | [] => false
  | .checkedIn _ :: _ => true
  | .checkedOut _ :: _ => false
  | _ :: log => openReversed log

/-! ## Records -/

structure Record where
  /-- None until the record is stored for the first time. -/
  id : Option RecordId
  session : SessionId
  member : MemberId
  events : List Event
  version : Version
  standing : Standing
  /-- How many of the events are stored. -/
  persisted : Nat
  deriving DecidableEq

namespace Record

/-- A record that was never stored, with an empty log. -/
def new (session : SessionId) (member : MemberId) : Record :=
  ⟨none, session, member, [], 0, .initial, 0⟩

/-- A record as it was stored: every event given counts as stored. -/
def rehydrate (id : RecordId) (session : SessionId) (member : MemberId) (version : Version)
    (events : List Event) : Record :=
  ⟨some id, session, member, events, version, .ofLog events, events.length⟩

/-- The events that are not stored yet. -/
def uncommitted (r : Record) : List Event := r.events.drop r.persisted

/-- The status kept up with every event added. -/
def status (r : Record) : Status := r.standing.status

/-- The status folded from the whole log. -/
def foldedStatus (r : Record) : Status := foldStatus r.events

def checkedIn (r : Record) : Bool := openReversed r.events.reverse

def correction (r : Record) : Correction := .ofLog r.events

/-- Adds an event to the log. Whoever calls has checked that it may be added. -/
def add (r : Record) (e : Event) : Record :=
  { r with events := r.events ++ [e], standing := r.standing.apply e }

/-- The record after a store has written its events under `id`. -/
def stored (r : Record) (id : RecordId) : Record :=
  { r with id := some id, version := r.version + 1, persisted := r.events.length }

def checkIn (r : Record) (now : Instant) : Except Failure Record :=
  if r.checkedIn then .error .alreadyCheckedIn else .ok (r.add (.checkedIn now))

def checkOut (r : Record) (now : Instant) : Except Failure Record :=
  if r.checkedIn then .ok (r.add (.checkedOut now)) else .error .notCheckedIn

end Record

end Rollbook
