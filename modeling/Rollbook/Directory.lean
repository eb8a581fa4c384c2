import Rollbook.Keyed
import Rollbook.Plan
/-
  Rollbook.Directory — roles and sessions kept in memory.

  Ids are whatever the updates name: a role may be given to a member nobody has
  heard of. A member holds a system role at most once and one role per course,
  and a session has one scope; giving a course role or a scope again replaces it.
-/

namespace Rollbook

structure Directory where
  system : List (MemberId × SystemRole)
  course : List ((MemberId × CourseId) × CourseRole)
  sessions : List (SessionId × Scope)

namespace Directory

def empty : Directory := ⟨[], [], []⟩

/-! ## Updates -/

def grant (d : Directory) (member : MemberId) (role : SystemRole) : Directory :=
  if d.system.contains (member, role) then d else { d with system := d.system ++ [(member, role)] }

def revoke (d : Directory) (member : MemberId) (role : SystemRole) : Directory :=
  { d with system := d.system.filter fun held => held ≠ (member, role) }

def assign (d : Directory) (member : MemberId) (course : CourseId) (role : CourseRole) : Directory :=
  { d with course := Keyed.put (member, course) role d.course }

def addSession (d : Directory) (session : SessionId) (scope : Scope) : Directory :=
  { d with sessions := Keyed.put session scope d.sessions }

/-! ## Reads -/

def systemRoles (d : Directory) (member : MemberId) : List SystemRole :=
  d.system.filterMap fun held => if held.1 = member then some held.2 else none

def courseRole (d : Directory) (member : MemberId) (course : CourseId) : Option CourseRole :=
  d.course.lookup (member, course)

def sessionScope (d : Directory) (session : SessionId) : Option Scope := d.sessions.lookup session

/-- The sessions of a course, ascending. -/
def courseSessions (d : Directory) (course : CourseId) : List SessionId :=
  (d.sessions.filterMap fun s => if s.2 = .course course then some s.1 else none).mergeSort
    fun a b => a ≤ b

/-- The members with a role in a course, ascending. -/
def courseMembers (d : Directory) (course : CourseId) : List MemberId :=
  (d.course.filterMap fun h => if h.1.2 = course then some h.1.1 else none).mergeSort
    fun a b => a ≤ b

end Directory

end Rollbook
