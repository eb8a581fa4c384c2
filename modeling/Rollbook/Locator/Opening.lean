import Rollbook.Locator
/-
  Rollbook.Locator.Opening — what the database engine makes of a name.

  The engine is handed a name and the access that is wanted. A name that starts
  with `file:` is a locator of its own: after a host, which must be this machine,
  come the name of the file and, behind a question mark, parameters; a number sign
  ends it. Percent escapes are replaced after the parts were told apart, and one
  that stands for NUL ends the part it is in. Parameters choose the way of reaching
  files and the access, later ones over earlier ones, but never more access than
  there was before.

  Some names stand for a database that no file keeps: the empty name, `:memory:`,
  and every name when memory was asked for.
-/

namespace Rollbook

/-! ## Access -/

/-- What may be done with a file, from less to more. -/
inductive Rights where
  | read
  | write
  /-- Write, and make the file where there is none. -/
  | create
  deriving DecidableEq, Repr

def Rights.level : Rights → Nat
  | .read => 0
  | .write => 1
  | .create => 2

structure Access where
  /-- The database is kept in memory. -/
  memory : Bool
  /-- None when nothing but memory was asked for. -/
  rights : Option Rights
  deriving DecidableEq, Repr

namespace Access

/-- The access that a mode stands for. -/
def ofMode? : String → Option Access
  | "ro" => some ⟨false, some .read⟩
  | "rw" => some ⟨false, some .write⟩
  | "rwc" => some ⟨false, some .create⟩
  | "memory" => some ⟨true, none⟩
  | _ => none

/-- Whether `new` is no more than there is. Memory is no file, so it may become any access. -/
def allows (a new : Access) : Bool :=
  match a.rights, new.rights with
  | some r, some r' => a.memory || r'.level ≤ r.level
  | _, _ => true

def isReadOnly (a : Access) : Bool := a.rights = some .read

end Access

/-! ## Targets -/

/-- How the users of a file find out about each other. -/
inductive Sharing where
  /-- They do not, or not well enough to keep a log of changes. -/
  | blind
  /-- There is only one. -/
  | single
  /-- By a file beside it. -/
  | many
  deriving DecidableEq, Repr

/-- How a file is opened. -/
structure Manner where
  rights : Rights
  /-- The content is taken as unchanging. -/
  frozen : Bool
  sharing : Sharing
  /-- A file whose permissions a new one gets. -/
  model : Option String
  deriving DecidableEq, Repr

/-- What is opened. -/
inductive Target where
  /-- A database that no file keeps. -/
  | passing (writable : Bool)
  | file (path : String) (manner : Manner)
  deriving DecidableEq, Repr

/-! ## Openings -/

/-- What the engine is asked to open. -/
structure Opening where
  name : List UInt8
  /-- The way of reaching files. -/
  fileSystem : String
  access : Access
  parameters : List (String × String)
  deriving DecidableEq, Repr

namespace Opening

open Rollbook.Text

/-- The parts of a locator are told apart by characters that are not escaped. -/
def mark (c : Char) : Octet := ⟨asciiByte c, false⟩

/-- The bytes of a part up to an escaped NUL. -/
def partBytes (part : List Octet) : List UInt8 :=
  (part.map (·.byte)).takeWhile (· ≠ 0)

def partText (part : List Octet) : String := String.ofList (Utf8.decodeLossy (partBytes part))

/-- The parameters with a name. -/
def parametersOf (query : List Octet) : List (String × String) :=
  ((splitAt (mark '&') query).map fun part =>
    let (name, value) := cutAt (mark '=') part
    (partText name, partText (value.getD []))).filter fun p => p.1 ≠ ""

/-- An opening with one parameter taken into account. -/
def withParameter (o : Opening) (p : String × String) : Except DbError Opening :=
  match p.1 with
  | "vfs" => .ok { o with fileSystem := p.2 }
  | "cache" => if p.2 = "shared" ∨ p.2 = "private" then .ok o else .error (.unknownMode "cache" p.2)
  | "mode" =>
    match Access.ofMode? p.2 with
    | none => .error (.unknownMode "access" p.2)
    | some a => if o.access.allows a then .ok { o with access := a } else .error (.modeRefused p.2)
  | _ => .ok o

/-- The host of a file locator, given from behind the scheme, and what follows it. -/
def cutHost : List UInt8 → List UInt8 × List UInt8
  | 47 :: 47 :: rest => (rest.takeWhile (· ≠ 47), rest.dropWhile (· ≠ 47))
  | bytes => ([], bytes)

/-- The opening of a file locator, given from behind the scheme. -/
def ofFileLocator? (fileSystem : String) (access : Access) (bytes : List UInt8) :
    Except DbError Opening :=
  let (host, rest) := cutHost bytes
  if host ≠ [] ∧ host ≠ Utf8.encode "localhost".toList then
    .error (.foreignHost (String.ofList (Utf8.decodeLossy host)))
  else
    let (name, query) := cutAt (mark '?') ((octets rest).takeWhile (· ≠ mark '#'))
    let parameters := parametersOf (query.getD [])
    parameters.foldlM withParameter ⟨partBytes name, fileSystem, access, parameters⟩

/-- The way of reaching files that is taken when none is named. -/
def usualFileSystem : String := "unix"

/-- What the engine makes of a name. -/
def ofName? (access : Access) (name : List UInt8) : Except DbError Opening :=
  let scheme := Utf8.encode "file:".toList
  if scheme.isPrefixOf name then ofFileLocator? usualFileSystem access (name.drop scheme.length)
  else .ok ⟨name, usualFileSystem, access, []⟩

/-- The name that is handed to the engine: a file locator if there is something to say beside it. -/
def nameOf (o : OpenOptions) : List UInt8 :=
  let name := Utf8.encode o.name.toList
  let parameters :=
    (if o.frozen then [Utf8.encode "immutable=true".toList] else []) ++
      match o.fileSystem with
      | some fs => [Utf8.encode "vfs=".toList ++ formEncode fs]
      | none => []
  if parameters.isEmpty then name
  else
    Utf8.encode "file:".toList ++ percentEncode name ++
      Utf8.encode "?".toList ++ [asciiByte '&'].intercalate parameters

def accessOf (o : OpenOptions) : Access :=
  ⟨o.inMemory, some (if o.readOnly then .read else if o.create then .create else .write)⟩

def ofOptions? (o : OpenOptions) : Except DbError Opening :=
  let name := nameOf o
  if 0 ∈ name then .error .nulInName else ofName? (accessOf o) name

/-! ## What is opened in the end -/

/-- Whether a parameter says yes: in words, or by a number that is no multiple of 256. -/
def isYes (value : String) : Bool :=
  match value.toList.takeWhile Char.isDigit with
  | [] => value.toLower ∈ ["on", "yes", "true"]
  | ds => Text.value ds ≤ 2147483647 && Text.value ds % 256 ≠ 0

/-- The ways of reaching files, the last of which keeps them in memory. -/
def fileSystems : List String := ["unix", "unix-none", "unix-dotfile", "unix-excl", "memdb"]

def affirms (o : Opening) (parameter : String) : Bool := (o.parameters.lookup parameter).any isYes

def sharing (o : Opening) : Sharing :=
  if o.affirms "nolock" then .blind
  else if o.fileSystem = "unix" then .many
  else if o.fileSystem = "unix-excl" then .single
  else .blind

/-- The most bytes in the name of a file that is kept in memory. -/
def longestMemoryName : Nat := 1016

def target (o : Opening) : Except DbError Target :=
  let passing := .ok (.passing (!o.access.isReadOnly))
  if o.fileSystem ∉ fileSystems then .error (.noFileSystem o.fileSystem)
  else if o.access.memory ∨ o.name = [] ∨ o.name = Utf8.encode ":memory:".toList then passing
  else if o.fileSystem = "memdb" then
    if longestMemoryName < o.name.length then .error .cannotOpen else passing
  else
    .ok (.file (String.ofList (Utf8.decodeLossy o.name))
      ⟨o.access.rights.getD .write, o.affirms "immutable", o.sharing, o.parameters.lookup "modeof"⟩)

end Opening

end Rollbook
