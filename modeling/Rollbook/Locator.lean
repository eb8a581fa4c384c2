import Rollbook.Failure
import Rollbook.Locator.Address
/-
  Rollbook.Locator — texts that say where the database is and how to open it.

  A setting is either a locator already, known by its scheme, or the path of a
  file, which becomes a locator that opens the file for writing and creates it
  where there is none.

  From a locator of the supported scheme come the name of the file, with percent
  escapes, and the parameters after the first question mark.
-/

namespace Rollbook

namespace Locator

open Rollbook.Text

/-! ## Locators and settings -/

/-- The text is a locator and not a path. -/
def isLocator (text : String) : Bool :=
  ["sqlite:", "postgres://", "mysql://"].any fun scheme => scheme.toList.isPrefixOf text.toList

/-- The locator that a setting stands for. -/
def ofSetting (text : String) : String :=
  if isLocator text then text else s!"sqlite://{text}?mode=rwc"

/-- What is left of a locator once blanks and control characters at its ends and line breaks and tabs
    anywhere are ignored. -/
def significant (locator : String) : List Char :=
  let isEdge (c : Char) := c.toNat ≤ 0x20
  let inner := ((locator.toList.dropWhile isEdge).reverse.dropWhile isEdge).reverse
  inner.filter fun c => c ≠ '\t' && c ≠ '\n' && c ≠ '\r'

/-- Whether the text after the scheme is well formed. -/
def isHierarchy : List Char → Bool
  | '/' :: '/' :: rest =>
    let address := rest.takeWhile fun c => c ≠ '/' && c ≠ '?' && c ≠ '#'
    isAddress (address.length = rest.length) address
  | _ => true

/-- Whether a locator with one of the known schemes can be taken apart. -/
def isReadable (locator : String) : Bool :=
  isHierarchy (((significant locator).dropWhile (· ≠ ':')).drop 1)

/-- Whether a driver for the scheme is at hand. -/
def isSupported (locator : String) : Bool := "sqlite:".toList.isPrefixOf locator.toList

end Locator

/-! ## Options -/

/-- How a database is opened. -/
structure OpenOptions where
  name : String
  inMemory : Bool
  readOnly : Bool
  create : Bool
  /-- The content is taken as unchanging. -/
  frozen : Bool
  /-- A named way of reaching files. -/
  fileSystem : Option String
  deriving DecidableEq, Repr

namespace OpenOptions

open Rollbook.Text

/-- The text without any repetition of `pre` at its start. -/
def stripAll (pre : List Char) (cs : List Char) : List Char :=
  if _h : pre.isPrefixOf cs ∧ pre ≠ [] ∧ cs ≠ [] then stripAll pre (cs.drop pre.length) else cs
  termination_by cs.length
  decreasing_by
    have h1 := List.length_pos_iff.2 _h.2.1
    have h2 := List.length_pos_iff.2 _h.2.2
    simp only [List.length_drop]
    omega

/-- The name of the file and the query of a locator: the scheme is taken off as often as it is there,
    first with its slashes and then without, and the query starts at the first question mark. -/
def partsOf (locator : String) : List Char × Option (List Char) :=
  cutAt '?' (stripAll "sqlite:".toList (stripAll "sqlite://".toList locator.toList))

def ofName? (name : List Char) : Except Misconfiguration OpenOptions :=
  if name = ":memory:".toList then .ok ⟨":memory:", true, false, false, false, none⟩
  else match Utf8.decode? (percentDecode (Utf8.encode name)) with
    | .ok cs => .ok ⟨String.ofList cs, false, false, false, false, none⟩
    | .error fault => .error (.badName fault.index fault.length)

/-- The options with one parameter taken into account. -/
def withParameter (o : OpenOptions) (p : String × String) : Except Misconfiguration OpenOptions :=
  let unknown := .error (.unknownValue p.1 p.2)
  match p.1 with
  | "mode" =>
    match p.2 with
    | "ro" => .ok { o with readOnly := true }
    | "rw" => .ok o
    | "rwc" => .ok { o with create := true }
    | "memory" => .ok { o with inMemory := true }
    | _ => unknown
  | "cache" => if p.2 = "private" ∨ p.2 = "shared" then .ok o else unknown
  | "immutable" =>
    if p.2 = "true" ∨ p.2 = "1" then .ok { o with frozen := true }
    else if p.2 = "false" ∨ p.2 = "0" then .ok { o with frozen := false }
    else unknown
  | "vfs" => .ok { o with fileSystem := some p.2 }
  | _ => .error (.unknownParameter p.1)

def ofLocator? (locator : String) : Except Misconfiguration OpenOptions := do
  let (name, query) := partsOf locator
  let options ← ofName? name
  ((query.map queryParameters).getD []).foldlM withParameter options

end OpenOptions

end Rollbook
