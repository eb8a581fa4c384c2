import Rollbook.Authority
import Rollbook.Text.Blank
/-
  Rollbook.Correction — filing, approving and rejecting corrections.

  Each transition first asks for the authority it needs and only then looks at
  the record, so a plan that fails leaves the record as it was. What comes out is
  the record with one more event; storing it is the caller's business.

  Reasons are trimmed before they are recorded. A blank reason is refused, except
  that an approval without one takes over the reason of the request.
-/

namespace Rollbook.Correction

/-- What a review that is not allowed fails with, and the line it leaves in the log. -/
def refuseReview (reviewer : MemberId) (session : SessionId) (pending : Request) :
    ReviewAuthority → Plan Unit
  | .selfReview => do
    Plan.log (.ownReview reviewer session)
    Plan.fail .ownReview
  | _ => do
    Plan.log (.lacksAuthority reviewer pending.requester session)
    Plan.fail (.notAuthorized
      "reviewer must manage the course, be SUPERVISOR or higher, or outrank the requester")

/-- Goes on only if the reviewer may decide on the pending request. -/
def checkReview (record : Record) (reviewer : MemberId) (pending : Request) : Plan Unit := do
  let authority ← ReviewAuthority.judge reviewer pending.requester pending.grant record.session
  if authority.allowed then return ()
  else refuseReview reviewer record.session pending authority

/-- The pending request of a record, which approving and rejecting need. -/
def pendingOf (record : Record) : Plan Request :=
  match record.correction with
  | .pending r => return r
  | .idle => Plan.fail .nothingPending

/-- Files a correction. -/
def request (record : Record) (actor : MemberId) (wanted : Status) (reason : String) :
    Plan Record := do
  match ← Authority.requestGrant actor record.session with
  | none =>
    Plan.log (.mayNotRequest actor record.session)
    Plan.fail (.notAuthorized
      "MENTOR in the session's course or OPERATOR required to request a correction")
  | some grant =>
    let reason := Text.trim reason
    if reason.isEmpty then Plan.fail (.validation "correction reason is required")
    else if !record.correction.isIdle then Plan.fail .correctionPending
    else
      let current := record.status
      if current = wanted then Plan.fail .sameStatus
      else
        let time ← Plan.now
        Plan.log (.requested actor record.member record.session current wanted)
        return record.add (.requested ⟨time, current, wanted, reason, actor, grant⟩)

/-- The reason of an approval: the reviewer's own unless it is missing or blank. -/
def approvalReason (given : Option String) (pending : Request) : String :=
  match given.map Text.trim with
  | some r => if r.isEmpty then pending.reason else r
  | none => pending.reason

/-- Approves the pending request: the status becomes the one it asked for. -/
def approve (record : Record) (actor : MemberId) (reason : Option String) : Plan Record := do
  let pending ← pendingOf record
  checkReview record actor pending
  let time ← Plan.now
  let previous := record.status
  Plan.log (.approved actor record.member record.session previous pending.wanted)
  return record.add (.corrected time previous pending.wanted (approvalReason reason pending) actor)

/-- Rejects the pending request: the status stays as it is. -/
def reject (record : Record) (actor : MemberId) (reason : String) : Plan Record := do
  let pending ← pendingOf record
  checkReview record actor pending
  let reason := Text.trim reason
  if reason.isEmpty then Plan.fail (.validation "rejection reason is required")
  else
    let time ← Plan.now
    Plan.log (.rejected actor record.member record.session)
    return record.add (.rejected time reason actor)

end Rollbook.Correction
