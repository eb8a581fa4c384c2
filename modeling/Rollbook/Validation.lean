import Rollbook.Failure
import Rollbook.Text.Sorted
/-
  Rollbook.Validation — what is wrong with the fields of a command.

  Each problem names a field and may carry a message of its own. The problems of
  a command are put into one text: their messages sorted by code point and joined
  with semicolons, so the text does not depend on the order in which the fields
  were looked at.
-/

namespace Rollbook

structure Problem where
  field : String
  message : Option String
  deriving DecidableEq, Repr

namespace Problem

/-- The message of a problem; one without says that its field is invalid. -/
def text (p : Problem) : String := p.message.getD s!"{p.field} is invalid"

/-- The sorted messages of all problems. -/
def summary (ps : List Problem) : String :=
  String.intercalate "; " (Text.sorted (ps.map text))

def failure (ps : List Problem) : Failure := .validation (summary ps)

end Problem

/-! ## The checks of commands -/

/-- The longest reason, in characters. -/
def longestReason : Nat := 1000

def requirePositive (field : String) (id : Int64) : List Problem :=
  if 1 ≤ id then [] else [⟨field, some s!"{field} must be positive"⟩]

def requireShort (field what text : String) : List Problem :=
  if text.length ≤ longestReason then []
  else [⟨field, some s!"{what} must be at most 1000 characters"⟩]

/-- The problems of the pair that names a record. -/
def keyProblems (session : SessionId) (member : MemberId) : List Problem :=
  requirePositive "session_id" session ++ requirePositive "member_id" member

end Rollbook
