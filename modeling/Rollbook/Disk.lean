import Rollbook.Database
import Rollbook.Disk.Path
import Rollbook.Keyed
import Rollbook.Text.Sorted
/-
  Rollbook.Disk — a tree of folders and files.

  Places are lists of names from the root, which is always a folder. Paths without
  a slash in front are followed from the working folder. A path is followed name by
  name, two dots going back up, and every name but the last must be that of a
  folder. Names and whole paths must not be too long.

  A file holds a text or a database.
-/

namespace Rollbook

abbrev Place := List String

/-- What a file holds. -/
inductive Contents where
  | text (s : String)
  | database (d : Database)

inductive Node where
  | folder (entries : List (String × Node))
  | file (c : Contents)

namespace Node

/-- What is under a name in a folder. -/
def child? : Node → String → Option Node
  | .folder entries, name => entries.lookup name
  | .file _, _ => none

/-- What is at a place below. -/
def at? (n : Node) : Place → Option Node
  | [] => some n
  | name :: rest =>
    match n.child? name with
    | some child => child.at? rest
    | none => none

/-- Puts something at a place below, in a folder that is there. -/
def put (n : Node) (place : Place) (new : Node) : Node :=
  match place, n with
  | [], _ => new
  | name :: rest, .folder entries =>
    .folder (Keyed.put name (put ((entries.lookup name).getD (.folder [])) rest new) entries)
  | _ :: _, .file c => .file c

/-- Takes away what is at a place below. -/
def remove (n : Node) (place : Place) : Node :=
  match place, n with
  | [name], .folder entries => .folder (entries.filter fun e => e.1 ≠ name)
  | name :: rest, .folder entries =>
    match entries.lookup name with
    | some child => .folder (Keyed.put name (remove child rest) entries)
    | none => .folder entries
  | _, n => n

/-- What the file holds; a folder holds nothing. -/
def contents? : Node → Option Contents
  | .folder _ => none
  | .file c => some c

mutual

/-- Everything below a folder at a place, what is in a folder after the folder. -/
def entries (place : Place) : Node → List (Place × Option Contents)
  | .folder entries => allEntries place entries
  | .file _ => []

def allEntries (place : Place) : List (String × Node) → List (Place × Option Contents)
  | [] => []
  | (name, n) :: rest =>
    (place ++ [name], n.contents?) :: (entries (place ++ [name]) n ++ allEntries place rest)

end

end Node

/-- Why something cannot be done with a path. -/
inductive Disk.Fault where
  | missing
  | exists
  | notFolder
  | isFolder
  | nameTooLong
  | nulInName
  deriving DecidableEq, Repr

structure Disk where
  root : Node
  /-- The working folder. -/
  current : Place

namespace Disk

/-- The wording of the operating system, which never gets to see a name with a NUL. -/
def Fault.message : Fault → String
  | .missing => "No such file or directory (os error 2)"
  | .exists => "File exists (os error 17)"
  | .notFolder => "Not a directory (os error 20)"
  | .isFolder => "Is a directory (os error 21)"
  | .nameTooLong => "File name too long (os error 36)"
  | .nulInName => "file name contained an unexpected NUL byte"

/-- A tree with nothing in it but the working folder. -/
def new (current : Place) : Disk := ⟨(Node.folder []).put current (.folder []), current⟩

def node? (d : Disk) (p : Place) : Option Node := d.root.at? p

def put (d : Disk) (p : Place) (n : Node) : Disk := { d with root := d.root.put p n }

def remove (d : Disk) (p : Place) : Disk := { d with root := d.root.remove p }

/-! ## Following paths -/

/-- The most bytes in a name. -/
def longestName : Nat := 255

/-- The most bytes in a path. -/
def longestPath : Nat := 4095

/-- The names and nodes on the way from the root to a place, the place itself first. -/
abbrev Trail := List (String × Node)

def Trail.place (t : Trail) : Place := (t.map (·.1)).reverse

/-- The last node of a trail that starts at `root`. -/
def Trail.node (root : Node) (t : Trail) : Node := ((t.head?).map (·.2)).getD root

/-- The trail to a place as far as it exists. -/
def trailTo (root : Node) (t : Trail) : Place → Trail
  | [] => t
  | name :: rest =>
    match (Trail.node root t).child? name with
    | some n => trailTo root ((name, n) :: t) rest
    | none => t

/-- The place and node that names lead to from the end of a trail; a name that is missing at the end
    leads to a place without a node. -/
def follow (root : Node) (t : Trail) : List String → Except Fault (Place × Option Node)
  | [] => .ok (t.place, some (t.node root))
  | name :: rest =>
    if name = "." then follow root t rest
    else if name = ".." then follow root (t.drop 1) rest
    else if longestName < name.utf8ByteSize then .error .nameTooLong
    else match (t.node root).child? name with
      | some (.folder entries) => follow root ((name, .folder entries) :: t) rest
      | some (.file c) =>
        if rest.isEmpty then .ok (t.place ++ [name], some (.file c)) else .error .notFolder
      | none => if rest.isEmpty then .ok (t.place ++ [name], none) else .error .missing

/-- The place and node of a path, followed from the folder `base` unless it is absolute. -/
def resolveFrom (d : Disk) (base : Place) (p : Path) : Except Fault (Place × Option Node) := do
  if p.names.any fun name => name.toList.contains '\x00' then .error .nulInName
  if p.isEmpty then .error .missing
  if longestPath < p.size then .error .nameTooLong
  let start := if p.absolute then [] else trailTo d.root [] base
  let (place, node) ← follow d.root start p.names
  match node with
  | some (.file _) => if p.folder then .error .notFolder else .ok (place, node)
  | _ => .ok (place, node)

/-- The bytes of the path to a place. -/
def pathSize (place : Place) : Nat :=
  place.foldl (fun size name => size + (name.utf8ByteSize + 1)) 0

/-- The same for a path that is written behind that of the folder. -/
def resolveIn (d : Disk) (folder : Place) (p : Path) : Except Fault (Place × Option Node) :=
  if !p.absolute && longestPath < pathSize folder + 1 + p.size then .error .nameTooLong
  else d.resolveFrom folder p

def resolve (d : Disk) (p : Path) : Except Fault (Place × Option Node) := d.resolveFrom d.current p

def isThere (d : Disk) (p : Path) : Bool :=
  match d.resolve p with
  | .ok (_, some _) => true
  | _ => false

def isFolder (d : Disk) (p : Path) : Bool :=
  match d.resolve p with
  | .ok (_, some (.folder _)) => true
  | _ => false

/-! ## Changes -/

def makeFolder (d : Disk) (p : Path) : Except Fault Disk := do
  match ← d.resolve p with
  | (_, some _) => .error .exists
  | (place, none) => .ok (d.put place (.folder []))

/-- Makes a folder and, where they are missing, the folders above it; those it could make stay even
    if it fails. -/
def makeFolders (d : Disk) (p : Path) : Except Fault Unit × Disk :=
  if p.isEmpty then (.ok (), d)
  else match d.makeFolder p with
    | .ok d => (.ok (), d)
    | .error .missing =>
      match _h : p.parent? with
      | none => (.error .missing, d)
      | some parent =>
        match makeFolders d parent with
        | (.error e, d) => (.error e, d)
        | (.ok (), d) =>
          match d.makeFolder p with
          | .ok d => (.ok (), d)
          | .error e => (if d.isFolder p then .ok () else .error e, d)
    | .error e => (if d.isFolder p then .ok () else .error e, d)
  termination_by p.depth
  decreasing_by exact Path.depth_of_parent? _h

/-- Opens a file to write at its end, and makes it where there is none. -/
def openForAppend (d : Disk) (p : Path) : Except Fault Disk := do
  match ← d.resolve p with
  | (_, some (.folder _)) => .error .isFolder
  | (_, some (.file _)) => .ok d
  | (place, none) => if p.folder then .error .isFolder else .ok (d.put place (.file (.text "")))

def removeFile (d : Disk) (p : Path) : Except Fault Disk := do
  match ← d.resolve p with
  | (_, some (.folder _)) => .error .isFolder
  | (place, some (.file _)) => .ok (d.remove place)
  | (_, none) => .error .missing

/-! ## Looking at a tree -/

/-- Everything there is, what is in a folder after the folder. -/
def entries (d : Disk) : List (Place × Option Contents) := d.root.entries []

/-- The path of something below the working folder, a folder's with a slash at its end. -/
def listed (e : Place × Option Contents) : String :=
  String.intercalate "/" e.1 ++ if e.2.isNone then "/" else ""

/-- Everything below the working folder. -/
def listing (d : Disk) : List String :=
  Text.sorted ((((d.node? d.current).map (Node.entries [])).getD []).map listed)

end Disk

end Rollbook
