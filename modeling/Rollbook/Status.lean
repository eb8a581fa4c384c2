import Rollbook.Label
/-
  Rollbook.Status — the outcome of one member's attendance in one session.

  A member who was there in any form attended; only `absent` counts against the
  attendance rate.
-/

namespace Rollbook

inductive Status where
  | present
  | absent
  | late
  | leftEarly
  deriving DecidableEq, Repr

namespace Status

instance : Labelled Status where
  all := [.present, .absent, .late, .leftEarly]
  label
    | .present => "PRESENT"
    | .absent => "ABSENT"
    | .late => "LATE"
    | .leftEarly => "LEFT_EARLY"

def label (s : Status) : String := Labelled.label s

/-- Whether the member counts as having been there. -/
def attended : Status → Bool
  | .absent => false
  | _ => true

end Status

end Rollbook
