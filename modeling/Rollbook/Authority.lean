import Rollbook.Plan
/-
  Rollbook.Authority — who may do what.

  System roles hold everywhere, course roles in one course and, through it, in
  the course's sessions. Someone without a role, a course or a session that does
  not exist simply lacks the capability; only a failing directory is a failure.

  A standalone session has no course roles, so OPERATOR or higher stands in for
  all of them there, and anyone may attend it.
-/

namespace Rollbook

open Ladder

namespace Authority

/-! ## System roles -/

def hasSystemRole (member : MemberId) (role : SystemRole) : Plan Bool := do
  let held ← Plan.systemRoles member
  return held.contains role

/-- Holds one of `roles`; for an empty list nobody is asked. -/
def hasAnySystemRole (member : MemberId) (roles : List SystemRole) : Plan Bool :=
  if roles.isEmpty then return false
  else do
    let held ← Plan.systemRoles member
    return roles.any held.contains

def hasSystemRoleOrHigher (member : MemberId) (minimum : SystemRole) : Plan Bool := do
  let held ← Plan.systemRoles member
  return held.any fun r => atLeast r minimum

/-! ## Course roles -/

def hasCourseRole (member : MemberId) (course : CourseId) (role : CourseRole) : Plan Bool := do
  let held ← Plan.courseRole member course
  return held == some role

def hasAnyCourseRole (member : MemberId) (course : CourseId) (roles : List CourseRole) :
    Plan Bool := do
  let held ← Plan.courseRole member course
  return held.any roles.contains

def hasCourseRoleOrHigher (member : MemberId) (course : CourseId) (minimum : CourseRole) :
    Plan Bool := do
  let held ← Plan.courseRole member course
  return held.any fun r => atLeast r minimum

def isCourseMember (member : MemberId) (course : CourseId) : Plan Bool := do
  let held ← Plan.courseRole member course
  return held.isSome

/-! ## Sessions -/

/-- Exactly this role in the session's course. -/
def hasSessionRole (member : MemberId) (session : SessionId) (role : CourseRole) : Plan Bool := do
  match ← Plan.sessionScope session with
  | some (.course course) => hasCourseRole member course role
  | some .standalone => hasSystemRoleOrHigher member .operator
  | none => return false

def hasSessionRoleOrHigher (member : MemberId) (session : SessionId) (minimum : CourseRole) :
    Plan Bool := do
  match ← Plan.sessionScope session with
  | some (.course course) => hasCourseRoleOrHigher member course minimum
  | some .standalone => hasSystemRoleOrHigher member .operator
  | none => return false

/-- Whether the member may attend the session at all. -/
def isSessionMember (member : MemberId) (session : SessionId) : Plan Bool := do
  match ← Plan.sessionScope session with
  | some (.course course) => isCourseMember member course
  | some .standalone => return true
  | none => return false

/-- The member's role in the session's course, if the session has a course. -/
def roleInCourseOf (member : MemberId) (session : SessionId) : Plan (Option CourseRole) := do
  match ← Plan.sessionScope session with
  | some (.course course) => Plan.courseRole member course
  | _ => return none

/-! ## Corrections -/

/-- The standing under which an actor may file a correction in a session. MENTOR or higher in the
    session's course comes before any system role; without it OPERATOR or higher will do. -/
def requestGrant (actor : MemberId) (session : SessionId) : Plan (Option Grant) := do
  let role ← roleInCourseOf actor session
  match role.filter fun r => atLeast r .mentor with
  | some r => return some ⟨.course, rank r⟩
  | none =>
    let held ← Plan.systemRoles actor
    return ((highestRank held).filter fun r => rank SystemRole.operator ≤ r).map fun r => ⟨.system, r⟩

end Authority

/-- What a reviewer is to a correction request. -/
inductive ReviewAuthority where
  /-- Manages the course of the session; this covers the reviewer's own requests. -/
  | leadManager
  /-- Holds SUPERVISOR or higher. -/
  | systemSupervisor
  /-- Stands above the requester in the tier the request used. -/
  | outranks
  /-- Filed the request. -/
  | selfReview
  | insufficient
  deriving DecidableEq, Repr

namespace ReviewAuthority

def allowed : ReviewAuthority → Bool
  | .leadManager | .systemSupervisor | .outranks => true
  | .selfReview | .insufficient => false

/-- Whether `reviewer` may decide on what `requester` filed in a session under `grant`. The roles the
    requester holds by now are not asked for. -/
def judge (reviewer requester : MemberId) (grant : Grant) (session : SessionId) :
    Plan ReviewAuthority := do
  let role ← Authority.roleInCourseOf reviewer session
  if role = some .manager then return .leadManager
  else if reviewer = requester then return .selfReview
  else
    let held ← Plan.systemRoles reviewer
    if held.any fun r => atLeast r .supervisor then return .systemSupervisor
    else
      let standing := match grant.tier with
        | .course => role.map rank
        | .system => highestRank held
      return if standing.any fun r => grant.rank < r then .outranks else .insufficient

end ReviewAuthority

end Rollbook
