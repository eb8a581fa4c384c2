import Rollbook.Directory
import Rollbook.Shelf
/-
  Rollbook.Memory — the backend that keeps everything in memory.

  Questions about roles and sessions go to the directory, the others to the
  shelf; only an append changes anything.
-/

namespace Rollbook

/-- A directory and a shelf. -/
structure Memory where
  directory : Directory
  shelf : Shelf

namespace Memory

def empty : Memory := ⟨.empty, .empty⟩

def backend : Backend Memory := fun q m =>
  match q with
  | .systemRoles member => ⟨.ok (m.directory.systemRoles member), m, []⟩
  | .courseRole member course => ⟨.ok (m.directory.courseRole member course), m, []⟩
  | .sessionScope session => ⟨.ok (m.directory.sessionScope session), m, []⟩
  | .courseSessions course => ⟨.ok (m.directory.courseSessions course), m, []⟩
  | .courseMembers course => ⟨.ok (m.directory.courseMembers course), m, []⟩
  | .find session member => ⟨.ok (m.shelf.find session member), m, []⟩
  | .findAll member sessions => ⟨.ok (m.shelf.findAll member sessions), m, []⟩
  | .append record =>
    let r := m.shelf.append record
    ⟨r.result, { m with shelf := r.state }, r.notes⟩

end Memory

end Rollbook
