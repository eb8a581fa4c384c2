import Rollbook.Plan
/-
  Rollbook.Summary — attendance in figures.

  A member's summary lists the status in each session and counts the statuses;
  the rate is the share of sessions attended in any form, 0 over no sessions. A
  course's summary lists its members' summaries; its average is the sum of their
  rates, added in order, over their number.
-/

namespace Rollbook

structure SessionStatus where
  session : SessionId
  status : Status
  deriving DecidableEq

structure Summary where
  member : MemberId
  sessions : List SessionStatus
  present : Nat
  absent : Nat
  late : Nat
  leftEarly : Nat
  rate : Float

namespace Summary

def count (sessions : List SessionStatus) (status : Status) : Nat :=
  sessions.countP fun s => s.status == status

/-- The share of `attended` sessions in `total`, the quotient of the two as doubles. -/
def rateOf (attended total : Nat) : Float :=
  if total = 0 then 0 else attended.toFloat / total.toFloat

def ofStatuses (member : MemberId) (sessions : List SessionStatus) : Summary :=
  let present := count sessions .present
  let late := count sessions .late
  let leftEarly := count sessions .leftEarly
  { member, sessions, present, late, leftEarly
    absent := count sessions .absent
    rate := rateOf (present + late + leftEarly) sessions.length }

/-- The status of a session among a member's records, ABSENT where there is none. -/
def statusIn (records : List Record) (session : SessionId) : Status :=
  match records.find? fun r => r.session = session with
  | some r => r.status
  | none => .absent

/-- The summary of a member over sessions, from the records found for them. -/
def ofRecords (member : MemberId) (sessions : List SessionId) (records : List Record) : Summary :=
  ofStatuses member (sessions.map fun s => ⟨s, statusIn records s⟩)

end Summary

structure CourseSummary where
  course : CourseId
  members : List Summary
  totalMembers : Nat
  totalSessions : Nat
  averageRate : Float

namespace CourseSummary

def empty (course : CourseId) : CourseSummary := ⟨course, [], 0, 0, 0⟩

def ofMembers (course : CourseId) (members : List Summary) (sessions : Nat) : CourseSummary where
  course
  members
  totalMembers := members.length
  totalSessions := sessions
  averageRate := (members.foldl (fun sum m => sum + m.rate) 0) / members.length.toFloat

end CourseSummary

end Rollbook
