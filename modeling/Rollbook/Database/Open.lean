import Rollbook.Disk
import Rollbook.Locator.Opening
/-
  Rollbook.Database.Open — opening the database of a locator.

  The engine takes a path apart by itself: it starts from the working folder, leaves
  out empty names and single dots and lets two dots undo the name before them, so
  folders that are undone need not exist. Only a name that passes through a file is
  refused, and one that makes the path too long. An open file need not be a
  database yet; that shows when it is used.
-/

namespace Rollbook

/-- A file that is used as a database. -/
structure OpenFile where
  place : Place
  writable : Bool
  /-- The content is taken as unchanging. -/
  frozen : Bool
  sharing : Sharing
  /-- A log of changes is in use. -/
  logged : Bool
  deriving DecidableEq, Repr

/-- An open database. -/
inductive Connection where
  /-- A database that no file will keep. -/
  | passing (content : Database) (writable : Bool)
  | file (f : OpenFile)

namespace Disk

/-! ## Paths as the engine understands them -/

/-- The most bytes in the path of a database and of every file beside it. -/
def longestDatabasePath : Nat := 512

/-- A name added to a place by the engine. -/
def engineStep (d : Disk) (place : Place) (name : String) : Except DbError Place :=
  if name = "." then .ok place
  else if name = ".." then .ok place.dropLast
  else if longestDatabasePath ≤ pathSize place + name.utf8ByteSize + 1 then .error .cannotOpen
  else match d.node? place with
    | some (.file _) => .error .cannotOpen
    | some (.folder _) =>
      if longestName < name.utf8ByteSize then .error .cannotOpen else .ok (place ++ [name])
    | none => .ok (place ++ [name])

/-- The place of a path as the engine understands it. -/
def enginePlace (d : Disk) (p : Path) : Except DbError Place :=
  p.names.foldlM d.engineStep (if p.absolute then [] else d.current)

/-! ## Opening -/

/-- What the names of the files beside a database end with. -/
def journalEnding : String := "-journal"
def logEnding : String := "-wal"
def sharingEnding : String := "-shm"

/-- Opens the file at a place. The file whose permissions a new one gets has to be there. -/
def openPlace (d : Disk) (place : Place) (manner : Manner) : Except DbError (Connection × Disk) :=
  let opened : Connection :=
    .file ⟨place, manner.rights ≠ .read, manner.frozen, manner.sharing, false⟩
  if place = [] ∨ longestDatabasePath < pathSize place + journalEnding.utf8ByteSize then
    .error .cannotOpen
  else if manner.model.any fun model => !d.isThere (Path.ofText model) then .error .cannotInspect
  else match d.node? place, d.node? place.dropLast with
    | some (.folder _), _ => .error (if manner.rights = .read then .cannotRead else .cannotOpen)
    | some (.file _), _ => .ok (opened, d)
    | none, some (.folder _) =>
      if manner.rights = .create then .ok (opened, d.put place (.file (.text "")))
      else .error .cannotOpen
    | none, _ => .error .cannotOpen

/-- Opens a target. -/
def openTarget (d : Disk) : Target → Except DbError (Connection × Disk)
  | .passing writable => .ok (.passing .empty writable, d)
  | .file path manner => do
    let place ← d.enginePlace (Path.ofText path)
    d.openPlace place manner

end Disk

/-- What is opened for a locator. -/
def Locator.target? (locator : String) : Except DbError Target :=
  if !isReadable locator then .error (.unreadableLocator locator)
  else if !isSupported locator then .error (.noDriver locator)
  else match OpenOptions.ofLocator? locator with
    | .error why => .error (.misconfigured why)
    | .ok options => (Opening.ofOptions? options).bind Opening.target

/-- Opens the database of a locator. -/
def Disk.openLocator (d : Disk) (locator : String) : Except DbError (Connection × Disk) :=
  (Locator.target? locator).bind d.openTarget

end Rollbook
