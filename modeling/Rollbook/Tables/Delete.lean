import Rollbook.Tables
/-
  Rollbook.Tables.Delete — removing a row and what hangs on it.

  Nothing that a log depends on can be removed: neither a member or a session with
  a log nor a log with events. The roles of a member or a course go with it, and
  the sessions of a course stay behind without one. A delete that is refused
  changes nothing; one of a row that does not exist removes nothing.
-/

namespace Rollbook.Tables

/-- The tables from which rows are removed by number. -/
inductive Part where
  | members
  | courses
  | sessions
  | records
  deriving DecidableEq, Repr

def hasRow (t : Tables) (part : Part) (id : Int64) : Bool :=
  match part with
  | .members => t.members.contains id
  | .courses => t.courses.contains id
  | .sessions => t.sessions.contains id
  | .records => t.hasRecord id.toInt

/-- A log depends on the row. -/
def isHeld (t : Tables) (part : Part) (id : Int64) : Bool :=
  match part with
  | .members => t.headers.any fun h => h.member = id
  | .courses => false
  | .sessions => t.headers.any fun h => h.session = id
  | .records => t.entries.any fun e => e.record = id.toInt

/-- The tables without the row and without what goes with it. -/
def without (t : Tables) (part : Part) (id : Int64) : Tables :=
  match part with
  | .members =>
    { t with
      members := t.members.erase id
      courseRoles := t.courseRoles.filter fun h => h.1.1 ≠ id
      systemRoles := t.systemRoles.filter fun h => h.1 ≠ id }
  | .courses =>
    { t with
      courses := t.courses.erase id
      courseRoles := t.courseRoles.filter fun h => h.1.2 ≠ id
      sessions := t.sessions.map fun m => if m.course = some id then { m with course := none } else m }
  | .sessions => { t with sessions := t.sessions.erase id }
  | .records => { t with headers := t.headers.filter fun h => h.id ≠ id.toInt }

/-- Removes a row and answers how many rows of its own table went. -/
def delete (t : Tables) (part : Part) (id : Int64) : Except DbError (Nat × Tables) :=
  if !t.hasRow part id then .ok (0, t)
  else if t.isHeld part id then .error .childrenLeft
  else .ok (1, t.without part id)

end Rollbook.Tables
