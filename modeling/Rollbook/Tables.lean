import Rollbook.Instant.Written
import Rollbook.Numbered
import Rollbook.Plan
/-
  Rollbook.Tables — members, courses, roles and logs kept as related tables.

  A row may name rows of other tables, and an insert that names a missing one is
  refused as a whole. A log is kept in two tables: a header per session and member
  with its version, and a row per event with its position and the event's JSON
  text. The rows of events are read by `Rollbook.Tables.Log`, rows are removed by
  `Rollbook.Tables.Delete`.
-/

namespace Rollbook

structure Meeting where
  /-- None for a session that stands alone. -/
  course : Option CourseId
  title : String
  scheduled : Instant
  deriving DecidableEq

/-- The header of a log. -/
structure Header where
  id : RecordId
  session : SessionId
  member : MemberId
  version : Version
  deriving DecidableEq

/-- An event of a log as it is kept. -/
structure Entry where
  record : RecordId
  /-- The position in the log, counted from 0. The column also takes numbers that are too large or too small
      to be read as one. -/
  position : Int
  kind : String
  payload : String
  time : Instant
  deriving DecidableEq

structure Tables where
  /-- Nicknames. -/
  members : Numbered String
  /-- Titles. -/
  courses : Numbered String
  sessions : Numbered Meeting
  courseRoles : List ((MemberId × CourseId) × CourseRole)
  systemRoles : List (MemberId × SystemRole)
  /-- The number of the header inserted last. -/
  lastRecord : RecordId
  headers : List Header
  entries : List Entry

namespace Tables

def empty : Tables := ⟨.empty, .empty, .empty, [], [], 0, [], []⟩

/-! ## Inserts -/

def createMember (t : Tables) (nickname : String) : Except DbError (MemberId × Tables) :=
  match t.members.insert? nickname with
  | some (id, members) => .ok (id, { t with members })
  | none => .error .full

def createCourse (t : Tables) (title : String) : Except DbError (CourseId × Tables) :=
  match t.courses.insert? title with
  | some (id, courses) => .ok (id, { t with courses })
  | none => .error .full

/-- Inserts a session; a course that it names must exist. The number is taken before that is looked at. -/
def createSession (t : Tables) (meeting : Meeting) : Except DbError (SessionId × Tables) :=
  match t.sessions.insert? meeting with
  | some (id, sessions) =>
    if meeting.course.all t.courses.contains then .ok (id, { t with sessions }) else .error .parentMissing
  | none => .error .full

/-- Gives a member a role in a course, in place of the one held before. -/
def assign (t : Tables) (member : MemberId) (course : CourseId) (role : CourseRole) :
    Except DbError Tables :=
  if t.members.contains member && t.courses.contains course then
    .ok { t with courseRoles := Keyed.put (member, course) role t.courseRoles }
  else .error .parentMissing

/-- Gives a member a system role; one that is held already is not given again. -/
def grant (t : Tables) (member : MemberId) (role : SystemRole) : Except DbError Tables :=
  if t.systemRoles.contains (member, role) then .ok t
  else if t.members.contains member then
    .ok { t with systemRoles := t.systemRoles ++ [(member, role)] }
  else .error .parentMissing

/-! ## Roles and sessions -/

def rolesOf (t : Tables) (member : MemberId) : List SystemRole :=
  t.systemRoles.filterMap fun held => if held.1 = member then some held.2 else none

def courseRole (t : Tables) (member : MemberId) (course : CourseId) : Option CourseRole :=
  t.courseRoles.lookup (member, course)

def sessionScope (t : Tables) (session : SessionId) : Option Scope :=
  (t.sessions.get? session).map fun m =>
    match m.course with
    | some course => .course course
    | none => .standalone

/-- Earlier stored text first, the smaller number first among equal texts. -/
def scheduledBefore (a b : SessionId × Meeting) : Bool :=
  let x := a.2.scheduled.stored
  let y := b.2.scheduled.stored
  x < y || (x == y && a.1 ≤ b.1)

/-- The sessions of a course in the order of the texts under which their times are kept. -/
def courseSessions (t : Tables) (course : CourseId) : List SessionId :=
  ((t.sessions.rows.filter fun row => row.2.course = some course).mergeSort scheduledBefore).map (·.1)

/-- The members with a role in a course, ascending. -/
def courseMembers (t : Tables) (course : CourseId) : List MemberId :=
  (t.courseRoles.filterMap fun h => if h.1.2 = course then some h.1.1 else none).mergeSort
    fun a b => a ≤ b

/-! ## Logs -/

def header? (t : Tables) (session : SessionId) (member : MemberId) : Option Header :=
  t.headers.find? fun h => h.session = session ∧ h.member = member

def hasRecord (t : Tables) (id : RecordId) : Bool := t.headers.any fun h => h.id = id

/-- The event rows of a record by position. -/
def entriesOf (t : Tables) (id : RecordId) : List Entry :=
  (t.entries.filter fun e => e.record = id).mergeSort fun a b => a.position ≤ b.position

/-- Adds an event row. Its record must exist and its position be free; what it says is not looked at. -/
def insertEntry (t : Tables) (e : Entry) : Except DbError Tables :=
  if t.entries.any fun old => old.record = e.record ∧ old.position = e.position then
    .error .positionTaken
  else if t.hasRecord e.record then .ok { t with entries := t.entries ++ [e] }
  else .error .parentMissing

end Tables

end Rollbook
