import Rollbook.Schema
/-
  Rollbook.Schema.Migration — the steps that build the schema of the rollbook.

  Each migration creates the tables of one part and can take them back. They build
  on each other: a table is created after the tables it refers to and dropped
  before them. A log cannot outlive its member or session and keeps both from
  being removed; roles go with whoever holds them; a session stays when its course
  goes.
-/

namespace Rollbook

structure Migration where
  name : String
  up : List Schema.Change
  down : List Schema.Change
  deriving DecidableEq, Repr

namespace Migration

/-! ## Columns and references -/

/-- A number given by the database, which is the primary key. -/
def idColumn : Column := ⟨"id", "INTEGER", true, none, 1⟩

def required (name type : String) : Column := ⟨name, type, true, none, 0⟩

/-- A required time that is set to the present by default. -/
def stamp (name : String) : Column := ⟨name, "timestamp_text", true, some "CURRENT_TIMESTAMP", 0⟩

/-- A reference to the number of another table's row. -/
def refersTo (column table : String) (onUpdate onDelete : Reaction) : Reference :=
  ⟨column, table, "id", onUpdate, onDelete⟩

def unique (name table : String) (columns : List String) : IndexShape := ⟨name, table, true, columns⟩

/-! ## The tables -/

def members : TableShape :=
  ⟨"members", [idColumn, required "nickname" "varchar", stamp "created_at"], []⟩

def courses : TableShape :=
  ⟨"courses", [idColumn, required "title" "varchar", stamp "created_at"], []⟩

def courseMembers : TableShape where
  name := "course_members"
  columns :=
    [⟨"course_id", "bigint", true, none, 1⟩, ⟨"member_id", "bigint", true, none, 2⟩,
     required "role" "enum_text"]
  references :=
    [refersTo "course_id" "courses" .none .follow, refersTo "member_id" "members" .none .follow]

def sessions : TableShape where
  name := "sessions"
  columns :=
    [idColumn, ⟨"course_id", "bigint", false, none, 0⟩, required "title" "varchar",
     required "scheduled_at" "timestamp_text", stamp "created_at"]
  references := [refersTo "course_id" "courses" .follow .clear]

def systemRoles : TableShape where
  name := "member_system_roles"
  columns :=
    [idColumn, required "member_id" "bigint", required "role" "enum_text", stamp "granted_at"]
  references := [refersTo "member_id" "members" .none .follow]

def attendances : TableShape where
  name := "attendances"
  columns :=
    [idColumn, required "session_id" "bigint", required "member_id" "bigint",
     ⟨"version", "bigint", true, some "0", 0⟩, stamp "created_at", stamp "updated_at"]
  references :=
    [refersTo "session_id" "sessions" .follow .restrict,
     refersTo "member_id" "members" .follow .restrict]

def attendanceEvents : TableShape where
  name := "attendance_events"
  columns :=
    [idColumn, required "attendance_id" "bigint", required "seq" "INTEGER",
     required "kind" "varchar", required "payload" "TEXT", required "occurred_at" "timestamp_text"]
  references := [refersTo "attendance_id" "attendances" .follow .restrict]

/-! ## The migrations -/

def createMembers : Migration where
  name := "m202510010001_create_members"
  up := [.createTable members]
  down := [.dropTable "members"]

def createCourses : Migration where
  name := "m202510010002_create_courses"
  up := [.createTable courses, .createTable courseMembers]
  down := [.dropTable "course_members", .dropTable "courses"]

def createSessions : Migration where
  name := "m202510010003_create_sessions"
  up := [.createTable sessions]
  down := [.dropTable "sessions"]

def createSystemRoles : Migration where
  name := "m202510010004_create_member_system_roles"
  up :=
    [.createTable systemRoles,
     .createIndex (unique "idx_member_system_roles_member_role" "member_system_roles" ["member_id", "role"])]
  down := [.dropTable "member_system_roles"]

def createAttendance : Migration where
  name := "m202510010005_create_attendance"
  up :=
    [.createTable attendances,
     .createIndex (unique "idx_attendances_session_member" "attendances" ["session_id", "member_id"]),
     .createTable attendanceEvents,
     .createIndex (unique "idx_attendance_events_attendance_seq" "attendance_events" ["attendance_id", "seq"])]
  down := [.dropTable "attendance_events", .dropTable "attendances"]

/-- All migrations in the order in which they are applied. -/
def all : List Migration := [createMembers, createCourses, createSessions, createSystemRoles, createAttendance]

end Migration

end Rollbook
