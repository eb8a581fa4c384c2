import Rollbook.Schema
import Rollbook.Tables
/-
  Rollbook.Database — the content of a database: its schema and its rows.
-/

namespace Rollbook

structure Database where
  schema : Schema
  tables : Tables

namespace Database

def empty : Database := ⟨.empty, .empty⟩

end Database

end Rollbook
