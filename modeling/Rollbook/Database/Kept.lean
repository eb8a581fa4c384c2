import Rollbook.Database
import Rollbook.Schema.Migration
import Rollbook.Text.Cut
/-
  Rollbook.Database.Kept — a prepared database as the text of a file.

  The text is a heading and the names of the migrations whose tables the database
  has, a line each. It says nothing about rows: only databases that were prepared
  and not used yet are kept this way.
-/

namespace Rollbook.Database

def heading : String := "rollbook database"

/-- All tables of the migration are there. -/
def hasTablesOf (s : Schema) (m : Migration) : Bool :=
  m.up.all fun
    | .createTable t => (s.table? t.name).isSome
    | _ => true

def kept (d : Database) : String :=
  String.intercalate "\n" (heading :: (Migration.all.filter (hasTablesOf d.schema)).map (·.name))

/-- The database that is kept as a text. -/
def ofKept? (text : String) : Option Database :=
  match Text.splitAt '\n' text.toList |>.map String.ofList with
  | [] => none
  | first :: names =>
    if first ≠ heading then none
    else
      match Schema.empty.applyAll ((Migration.all.filter fun m => m.name ∈ names).flatMap (·.up)) with
      | .ok schema => some { empty with schema }
      | .error _ => none

end Rollbook.Database
