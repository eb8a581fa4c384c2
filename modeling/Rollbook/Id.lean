/-
  Rollbook.Id — the names of things.

  Members, sessions and courses are named by 64-bit integers. A stored record is
  named by the number under which its store keeps it, and its version counts how
  often it was stored.
-/

namespace Rollbook

abbrev MemberId := Int64
abbrev SessionId := Int64
abbrev CourseId := Int64
abbrev RecordId := Int
abbrev Version := Int

end Rollbook
