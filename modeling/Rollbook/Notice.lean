import Rollbook.Id
import Rollbook.Status
/-
  Rollbook.Notice — what the service writes to its log.

  Each kind of line is a constructor that carries what the line names; `message`
  is its wording and `level` how loud it is.
-/

namespace Rollbook

inductive Notice where
  | checkedIn (member : MemberId) (session : SessionId)
  | checkedOut (member : MemberId) (session : SessionId)
  | requested (actor : MemberId) (member : MemberId) (session : SessionId) (current wanted : Status)
  | approved (actor : MemberId) (member : MemberId) (session : SessionId) (previous new : Status)
  | rejected (actor : MemberId) (member : MemberId) (session : SessionId)
  | notParticipant (member : MemberId) (session : SessionId)
  | mayNotRequest (actor : MemberId) (session : SessionId)
  | ownReview (reviewer : MemberId) (session : SessionId)
  | lacksAuthority (reviewer requester : MemberId) (session : SessionId)
  | versionConflict (session : SessionId) (member : MemberId) (expected found : Version)
  | noSessions (course : CourseId)
  | noMembers (course : CourseId)
  deriving DecidableEq, Repr

namespace Notice

inductive Level where
  | info
  | warn
  | debug
  deriving DecidableEq, Repr

def level : Notice → Level
  | .checkedIn .. | .checkedOut .. | .requested .. | .approved .. | .rejected .. => .info
  | .notParticipant .. | .mayNotRequest .. | .ownReview .. | .lacksAuthority ..
  | .versionConflict .. => .warn
  | .noSessions _ | .noMembers _ => .debug

def message : Notice → String
  | .checkedIn m s => s!"Member {m} checked in to session {s}"
  | .checkedOut m s => s!"Member {m} checked out of session {s}"
  | .requested a m s current wanted =>
    s!"Correction requested by {a} for member {m} in session {s}: {current.label} -> {wanted.label}"
  | .approved a m s previous new =>
    s!"Correction approved by {a} for member {m} in session {s}: {previous.label} -> {new.label}"
  | .rejected a m s => s!"Correction rejected by {a} for member {m} in session {s}"
  | .notParticipant m s => s!"Member {m} is not a participant of session {s}"
  | .mayNotRequest a s => s!"Member {a} may not request corrections in session {s}"
  | .ownReview r s => s!"Member {r} tried to review their own correction in session {s}"
  | .lacksAuthority r q s =>
    s!"Member {r} lacks authority to review a correction by {q} in session {s}"
  | .versionConflict s m e f =>
    s!"Version conflict on attendance session={s} member={m}: expected {e}, found {f}"
  | .noSessions c => s!"Course {c} has no sessions"
  | .noMembers c => s!"Course {c} has no members"

end Notice

end Rollbook
