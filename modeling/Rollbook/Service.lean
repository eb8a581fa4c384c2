import Rollbook.Correction
import Rollbook.Summary
import Rollbook.Validation
/-
  Rollbook.Service — the calls of the attendance service.

  A call that changes something goes through the same steps every time: check the
  fields, load the record, apply one transition, append. The calls that only ask
  load and look. All of them are plans, so what they ask, and in which order, is
  part of their meaning.
-/

namespace Rollbook.Service

/-- Goes on only if no field has a problem. -/
def require (problems : List Problem) : Plan Unit :=
  if problems.isEmpty then return () else Plan.fail (Problem.failure problems)

def loadExisting (session : SessionId) (member : MemberId) : Plan Record := do
  match ← Plan.find session member with
  | some record => return record
  | none => Plan.fail (.notFound session member)

def requireParticipant (session : SessionId) (member : MemberId) : Plan Unit := do
  if ← Authority.isSessionMember member session then return ()
  else
    Plan.log (.notParticipant member session)
    Plan.fail (.notAuthorized s!"member {member} is not a participant of session {session}")

/-! ## Commands -/

/-- Checks the member in; the first time this makes the record. -/
def checkIn (session : SessionId) (member : MemberId) : Plan Record := do
  require (keyProblems session member)
  requireParticipant session member
  let found ← Plan.find session member
  let record := found.getD (.new session member)
  let time ← Plan.now
  let record ← Plan.lift (record.checkIn time)
  let saved ← Plan.append record
  Plan.log (.checkedIn member session)
  return saved

def checkOut (session : SessionId) (member : MemberId) : Plan Record := do
  require (keyProblems session member)
  requireParticipant session member
  let record ← loadExisting session member
  let time ← Plan.now
  let record ← Plan.lift (record.checkOut time)
  let saved ← Plan.append record
  Plan.log (.checkedOut member session)
  return saved

def requestCorrection (actor : MemberId) (session : SessionId) (member : MemberId)
    (wanted : Status) (reason : String) : Plan Record := do
  require (keyProblems session member ++ requireShort "reason" "reason" reason)
  let record ← loadExisting session member
  let record ← Correction.request record actor wanted reason
  Plan.append record

/-- The problems of an approval; a missing reason is none. -/
def approvalProblems (session : SessionId) (member : MemberId) (reason : Option String) :
    List Problem :=
  keyProblems session member ++
    match reason with
    | some r => requireShort "reason" "reason" r
    | none => []

def approveCorrection (actor : MemberId) (session : SessionId) (member : MemberId)
    (reason : Option String) : Plan Record := do
  require (approvalProblems session member reason)
  let record ← loadExisting session member
  let record ← Correction.approve record actor reason
  Plan.append record

def rejectCorrection (actor : MemberId) (session : SessionId) (member : MemberId)
    (reason : String) : Plan Record := do
  require (keyProblems session member ++
    requireShort "rejection_reason" "rejection reason" reason)
  let record ← loadExisting session member
  let record ← Correction.reject record actor reason
  Plan.append record

/-! ## Questions -/

/-- Something read off a record, or what stands for it where there is no record. -/
def inspect {α : Type} (session : SessionId) (member : MemberId) (absent : α) (read : Record → α) :
    Plan α := do
  require (keyProblems session member)
  match ← Plan.find session member with
  | some record => return read record
  | none => return absent

/-- The final status; ABSENT for a member who never checked in. -/
def status (session : SessionId) (member : MemberId) : Plan Status :=
  inspect session member .absent Record.status

def correctionState (session : SessionId) (member : MemberId) : Plan Correction :=
  inspect session member .idle Record.correction

/-- The whole log. -/
def history (session : SessionId) (member : MemberId) : Plan (List Event) :=
  inspect session member [] Record.events

/-! ## Summaries -/

def summarize (member : MemberId) (sessions : List SessionId) : Plan Summary := do
  let records ← Plan.findAll member sessions
  return .ofRecords member sessions records

/-- The member's status in each of the sessions, a repeated session counted once. -/
def memberSummary (member : MemberId) (sessions : List SessionId) : Plan Summary :=
  if member < 1 then Plan.fail (.validation "member_id must be positive")
  else summarize member sessions.eraseDups

/-- One summary after the other, in the order of the members. -/
def summarizeAll (sessions : List SessionId) : List MemberId → Plan (List Summary)
  | [] => return []
  | m :: ms => do
    let first ← summarize m sessions
    let rest ← summarizeAll sessions ms
    return first :: rest

/-- The summaries of everyone with a role in the course over all of its sessions. -/
def courseSummary (course : CourseId) : Plan CourseSummary :=
  if course < 1 then Plan.fail (.validation "course_id must be positive")
  else do
    let sessions ← Plan.courseSessions course
    if sessions.isEmpty then
      Plan.log (.noSessions course)
      return .empty course
    else
      let members ← Plan.courseMembers course
      if members.isEmpty then
        Plan.log (.noMembers course)
        return .empty course
      else
        let summaries ← summarizeAll sessions members
        return .ofMembers course summaries sessions.length

end Rollbook.Service
