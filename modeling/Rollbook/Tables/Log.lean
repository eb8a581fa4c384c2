import Rollbook.Event.Payload
import Rollbook.Tables
/-
  Rollbook.Tables.Log — loading and appending logs kept in tables.

  Loading takes the rows of a record by position. All of them are taken out of the
  table, with all that they say, before the JSON text of any is read: a row whose
  position is no 32-bit number cannot be taken out, whatever its text is, and then
  no other row is either. One text that cannot be read makes the whole record
  unreadable. Whether the kind and the time of a row agree with its text is not
  looked at.

  An append that has events to add first secures the header: it inserts one for a
  record that was never stored, or raises the version of the one with the record's
  number if that still shows the version the append was made from. Then it adds
  the event rows behind those that the record knows of. Everything is done or
  nothing. There is a last version, from which no append can be made, and a last
  number, after which no header can be inserted.
-/

namespace Rollbook.Tables

/-! ## Loading -/

/-- The largest position of an event. -/
def lastPosition : Nat := 2147483647

/-- The position fits the type that it is read as. -/
def fitsPosition (position : Int) : Bool := -2147483648 ≤ position && position ≤ lastPosition

/-- The event rows of a record by position, taken out of the table. -/
def takeEntries (t : Tables) (id : RecordId) : Except DbError (List Entry) :=
  if (t.entriesOf id).all fun e => fitsPosition e.position then .ok (t.entriesOf id)
  else .error (.outOfRange "seq")

/-- The record of a header, if its rows can be taken out and the texts of all its events can be read. -/
def load (t : Tables) (h : Header) : Except Failure Record :=
  match t.takeEntries h.id with
  | .error e => .error (.database e)
  | .ok rows =>
    match rows.mapM fun row => Event.ofPayload? row.payload with
    | some events => .ok (.rehydrate h.id h.session h.member h.version events)
    | none => .error .unreadable

def find (t : Tables) (session : SessionId) (member : MemberId) : Except Failure (Option Record) :=
  match t.header? session member with
  | some h => some <$> t.load h
  | none => .ok none

/-- The most values that one request to the tables can name. -/
def mostValues : Nat := 32766

/-- The records of a member in any of the sessions, in the order of their headers. The member and all
    sessions are named in one request. -/
def findAll (t : Tables) (member : MemberId) (sessions : List SessionId) :
    Except Failure (List Record) :=
  if mostValues < sessions.length + 1 then .error (.database (.tooManyValues .query))
  else (t.headers.filter fun h => h.member = member ∧ h.session ∈ sessions).mapM t.load

/-! ## Appending -/

/-- The version under which a record is stored, 0 when it is not. -/
def versionOf (t : Tables) (session : SessionId) (member : MemberId) : Version :=
  ((t.header? session member).map (·.version)).getD 0

/-- The largest version. -/
def lastVersion : Version := 9223372036854775807

/-- The largest number of a header. -/
def lastNumber : RecordId := 9223372036854775807

/-- How many values an event row names. -/
def valuesOfEntry : Nat := 5

/-- The rows that hold the events of a record which are not stored yet. -/
def newEntries (r : Record) (id : RecordId) : List Entry :=
  (r.uncommitted.zipIdx r.persisted).map fun (e, i) => ⟨id, i, e.kind, e.payload, e.time⟩

/-- Adds event rows in one request. -/
def insertEntries (t : Tables) (entries : List Entry) : Except DbError Tables :=
  if mostValues < valuesOfEntry * entries.length then .error (.tooManyValues .execution)
  else entries.foldlM insertEntry t

/-- Why the header of a record cannot be secured. -/
inductive Refusal where
  | outdated
  | rejected (e : DbError)
  deriving DecidableEq, Repr

/-- Inserts a header for a record that was never stored. The number is taken before anything is looked at. -/
def insertHeader (t : Tables) (r : Record) : Except Refusal (RecordId × Tables) :=
  if lastNumber ≤ t.lastRecord then .error (.rejected .full)
  else if (t.header? r.session r.member).isSome then .error .outdated
  else if t.sessions.contains r.session && t.members.contains r.member then
    let id := t.lastRecord + 1
    let h : Header := ⟨id, r.session, r.member, r.version + 1⟩
    .ok (id, { t with lastRecord := id, headers := t.headers ++ [h] })
  else .error (.rejected .parentMissing)

/-- Raises the version of the header with this number if it still shows `version`. -/
def raiseVersion (t : Tables) (id : RecordId) (version : Version) : Except Refusal Tables :=
  if t.headers.any fun h => h.id = id ∧ h.version = version then
    .ok { t with
      headers := t.headers.map fun h => if h.id = id then { h with version := version + 1 } else h }
  else .error .outdated

/-- The number under which a record may add its events, and the tables with its header secured. -/
def secureHeader (t : Tables) (r : Record) : Except Refusal (RecordId × Tables) :=
  match r.id with
  | none => t.insertHeader r
  | some id => (t.raiseVersion id r.version).map fun t' => (id, t')

def append (t : Tables) (r : Record) : Reply Tables Record :=
  let found := t.versionOf r.session r.member
  if r.uncommitted.isEmpty then
    if found = r.version then ⟨.ok r, t, []⟩ else ⟨.error (.conflict r.version found), t, []⟩
  else if lastPosition + 1 < r.events.length then
    ⟨.error (.validation "attendance log is too long"), t, []⟩
  else if r.version = lastVersion then ⟨.error .noNextVersion, t, []⟩
  else match t.secureHeader r with
    | .error (.rejected e) => ⟨.error (.database e), t, []⟩
    | .error .outdated =>
      ⟨.error (.conflict r.version found), t, [.versionConflict r.session r.member r.version found]⟩
    | .ok (id, t') =>
      match t'.insertEntries (newEntries r id) with
      | .error e => ⟨.error (.database e), t, []⟩
      | .ok t'' => ⟨.ok (r.stored id), t'', []⟩

/-! ## Answering -/

/-- The backend that keeps everything in tables. -/
def backend : Backend Tables := fun q t =>
  match q with
  | .systemRoles member => ⟨.ok (t.rolesOf member), t, []⟩
  | .courseRole member course => ⟨.ok (t.courseRole member course), t, []⟩
  | .sessionScope session => ⟨.ok (t.sessionScope session), t, []⟩
  | .courseSessions course => ⟨.ok (t.courseSessions course), t, []⟩
  | .courseMembers course => ⟨.ok (t.courseMembers course), t, []⟩
  | .find session member => ⟨t.find session member, t, []⟩
  | .findAll member sessions => ⟨t.findAll member sessions, t, []⟩
  | .append record => t.append record

end Rollbook.Tables
