import Rollbook.Database.Image
import Rollbook.Database.Open
/-
  Rollbook.Database.Beside — the files beside a database.

  A change keeps what was there before in a journal beside the database, and
  removes the journal when it is done. Instead of that, changes may go to a log,
  with one more file for those who share it; both go when nobody uses the
  database any more. Whatever is found of these files was left by a change that
  never ended, and is dealt with before the database is read. A journal has the
  old state and is taken back into the file, unless it starts with NUL; then it
  says nothing. No journal and no log that is found holds anything that could
  still be used, so what happens to them is that they disappear.

  Files of at most one byte are databases without content, to which nothing can
  belong. Files without content are neither journals nor logs. A frozen file has
  nothing beside it.
-/

namespace Rollbook

namespace Contents

/-- A database without content. -/
def isBlank : Contents → Bool
  | .text s => s.utf8ByteSize ≤ 1
  | .database _ => false

def isEmpty : Contents → Bool
  | .text s => s.isEmpty
  | .database _ => false

def size : Contents → Nat
  | .text s => s.utf8ByteSize
  | .database _ => Database.Image.headerSize

def startsWithNul : Contents → Bool
  | .text s => s.toList.head? = some '\x00'
  | .database _ => false

/-- What a file holds as a database, and whether it may be changed. -/
def read : Contents → Except DbError (Database × Bool)
  | .database db => .ok (db, true)
  | .text s =>
    if (text s).isBlank then .ok (.empty, true)
    else do
      let image ← Database.Image.ofBytes? (Text.Utf8.encode s.toList).toArray
      let schema ← image.schema?
      return ({ Database.empty with schema }, image.isWritable)

end Contents

namespace OpenFile

open Disk

/-- The place of a file beside the database. -/
def beside (f : OpenFile) (ending : String) : Place :=
  f.place.dropLast ++ [f.place.getLast?.getD "" ++ ending]

/-- What is beside the database; a file without content is nothing. -/
def besideNode? (f : OpenFile) (d : Disk) (ending : String) : Option Node :=
  (d.node? (f.beside ending)).filter fun n => !(n.contents?.any Contents.isEmpty)

def isBlank (f : OpenFile) (d : Disk) : Bool :=
  (((d.node? f.place).bind Node.contents?).map Contents.isBlank).getD true

/-- Takes a journal back. -/
def takeBack (f : OpenFile) (d : Disk) : Except DbError Unit × Disk :=
  let gone := d.remove (f.beside journalEnding)
  match f.besideNode? d journalEnding with
  | none => (.ok (), d)
  | some (.folder _) => (if f.isBlank d then .ok () else .error .cannotReadBeside, d)
  | some (.file journal) =>
    if f.isBlank d then (.ok (), if f.writable then gone else d)
    else if journal.startsWithNul then (.ok (), d)
    else if f.writable then (.ok (), gone)
    else (.error .readOnlyRecovery, d)

/-- A folder stands where users would share a log, so that nobody can write to it. -/
def isSharingBarred (f : OpenFile) (d : Disk) : Bool :=
  f.sharing = .many && (f.besideNode? d sharingEnding).any fun n => n.contents?.isNone

/-- The bytes before the changes in a log. -/
def logHeader : Nat := 32

/-- What the file for sharing holds while nothing was changed. -/
def newSharing : Contents := .text (String.ofList (List.replicate 32768 '\x00'))

/-- Takes a log into use and ends it, if that is allowed. -/
def takeLog (f : OpenFile) (d : Disk) : Except DbError OpenFile × Disk :=
  match f.besideNode? d logEnding with
  | none => (.ok f, d)
  | some log =>
    if f.isBlank d then
      match log with
      | .folder _ => (.error .cannotDeleteBeside, d)
      | .file _ => (.ok f, d.remove (f.beside logEnding))
    else if log.contents?.isNone ∨ f.sharing = .blind then (.error .cannotOpenBeside, d)
    else if f.isSharingBarred d then
      if log.contents?.any fun c => logHeader ≤ c.size then (.error .noAgreement, d)
      else (.ok { f with writable := false, logged := true }, d)
    else
      let shared := f.beside sharingEnding
      if f.writable then
        let d := d.remove (f.beside logEnding)
        (.ok { f with logged := true }, if f.sharing = .many then d.remove shared else d)
      else
        match d.node? shared with
        | some (.folder _) => (.ok { f with logged := true }, d)
        | _ => (.ok { f with logged := true }, d.put shared (.file newSharing))

/-- Deals with what is beside a database before it is used. -/
def settle (f : OpenFile) (d : Disk) : Except DbError OpenFile × Disk :=
  if f.frozen || f.logged then (.ok f, d)
  else match f.takeBack d with
    | (.error e, d) => (.error e, d)
    | (.ok (), d) => f.takeLog d

/-- Writes a journal and removes it again, as every change does that goes to no log. -/
def writeJournal (f : OpenFile) (d : Disk) : Except DbError Disk :=
  let journal := f.beside journalEnding
  if f.logged then .ok d
  else match d.node? journal with
    | some (.folder _) => .error .cannotOpenBeside
    | _ =>
      if longestName < (journal.getLast?.getD "").utf8ByteSize then .error .cannotOpenBeside
      else .ok (d.remove journal)

/-- The disk with the schema of a database changed. A change that changes nothing is not written. -/
def applyChange (f : OpenFile) (d : Disk) (change : Schema.Change) : Except DbError Disk := do
  let (db, free) ← (((d.node? f.place).bind Node.contents?).getD (.text "")).read
  let schema ← db.schema.apply change
  if schema = db.schema then return d
  else if !free || !f.writable || f.frozen then .error .readOnly
  else
    let d ← f.writeJournal d
    return d.put f.place (.file (.database { db with schema }))

end OpenFile

namespace Connection

/-- Changes the schema of an open database. -/
def applyChange (c : Connection) (d : Disk) (change : Schema.Change) :
    Except DbError Unit × Connection × Disk :=
  match c with
  | .passing db writable =>
    match db.schema.apply change with
    | .error e => (.error e, c, d)
    | .ok schema =>
      if schema = db.schema then (.ok (), c, d)
      else if writable then (.ok (), .passing { db with schema } writable, d)
      else (.error .readOnly, c, d)
  | .file f =>
    match f.settle d with
    | (.error e, d) => (.error e, c, d)
    | (.ok f, d) =>
      match f.applyChange d change with
      | .error e => (.error e, .file f, d)
      | .ok d => (.ok (), .file f, d)

/-- One change after the other; those before one that fails stay. -/
def applyChanges (c : Connection) (d : Disk) : List Schema.Change →
    Except DbError Unit × Connection × Disk
  | [] => (.ok (), c, d)
  | change :: rest =>
    match c.applyChange d change with
    | (.error e, c, d) => (.error e, c, d)
    | (.ok (), c, d) => applyChanges c d rest

end Connection

end Rollbook
