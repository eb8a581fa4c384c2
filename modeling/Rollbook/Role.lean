import Rollbook.Label
/-
  Rollbook.Role — the two ladders of roles.

  System roles hold everywhere, course roles within one course. Each ladder has
  its own ranks and nothing converts a role of one into a role of the other.
  Between MEMBER and SUPERVISOR the system ladder has three peers of rank 1, so
  comparing ranks is a preorder and not an order there.
-/

namespace Rollbook

inductive SystemRole where
  | member
  | operator
  | registrar
  | auditor
  | supervisor
  | admin
  deriving DecidableEq, Repr

inductive CourseRole where
  | mentee
  | mentor
  | manager
  deriving DecidableEq, Repr

instance : Labelled SystemRole where
  all := [.member, .operator, .registrar, .auditor, .supervisor, .admin]
  label
    | .member => "MEMBER"
    | .operator => "OPERATOR"
    | .registrar => "REGISTRAR"
    | .auditor => "AUDITOR"
    | .supervisor => "SUPERVISOR"
    | .admin => "ADMIN"

instance : Labelled CourseRole where
  all := [.mentee, .mentor, .manager]
  label
    | .mentee => "MENTEE"
    | .mentor => "MENTOR"
    | .manager => "MANAGER"

/-- A labelled type whose values stand on rungs. -/
class Ladder (R : Type) extends Labelled R where
  rank : R → UInt8

instance : Ladder SystemRole where
  rank
    | .member => 0
    | .operator | .registrar | .auditor => 1
    | .supervisor => 2
    | .admin => 3

instance : Ladder CourseRole where
  rank
    | .mentee => 0
    | .mentor => 1
    | .manager => 2

namespace Ladder

variable {R : Type} [Ladder R]

/-- `role` stands on the rung of `minimum` or above it. -/
def atLeast (role minimum : R) : Bool := rank minimum ≤ rank role

/-- `role` stands strictly above `other`. -/
def above (role other : R) : Bool := rank other < rank role

/-- The roles whose capabilities `role` includes, itself among them. -/
def implied (role : R) : List R :=
  (Labelled.all : List R).filter fun r => atLeast role r

/-- The highest rank among `roles`, `none` when there are none. -/
def highestRank : List R → Option UInt8
  | [] => none
  | r :: rs =>
    match highestRank rs with
    | none => some (rank r)
    | some h => some (if h ≤ rank r then rank r else h)

/-- The word under which a role is kept in a table. -/
def stored (role : R) : String := (Labelled.label role).toLower

/-- Reads a role kept in a table; the word must be exactly the stored one. -/
def ofStored? (text : String) : Option R :=
  (Labelled.all : List R).find? fun r => stored r == text

end Ladder

end Rollbook
