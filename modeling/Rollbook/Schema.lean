import Rollbook.Failure
import Rollbook.Text.Sorted
/-
  Rollbook.Schema — the shape of a database: its tables, their columns and the
  references between them, and its indexes.

  A schema is changed by creating a table or an index, which does nothing when
  there is one of that name, and by dropping a table, which takes its indexes with
  it and fails when there is no such table. Tables and indexes share one set of
  names, in which ASCII case does not count, and views are tables that cannot be
  indexed.
-/

namespace Rollbook

/-- A column of a table. -/
structure Column where
  name : String
  type : String
  required : Bool
  default : Option String
  /-- The place in the primary key, counted from 1; 0 outside of it. -/
  key : Nat
  deriving DecidableEq, Repr

/-- What happens to a row when the row it names is changed or removed. -/
inductive Reaction where
  | none
  | restrict
  | clear
  | follow
  deriving DecidableEq, Repr

/-- The word for a reaction in a table's definition. -/
def Reaction.label : Reaction → String
  | .none => "NO ACTION"
  | .restrict => "RESTRICT"
  | .clear => "SET NULL"
  | .follow => "CASCADE"

/-- A column that names rows of another table. -/
structure Reference where
  column : String
  table : String
  target : String
  onUpdate : Reaction
  onDelete : Reaction
  deriving DecidableEq, Repr

structure TableShape where
  name : String
  columns : List Column
  references : List Reference
  deriving DecidableEq, Repr

structure IndexShape where
  name : String
  table : String
  unique : Bool
  columns : List String
  deriving DecidableEq, Repr

/-- A table that is computed when it is read. -/
structure View where
  name : String
  /-- It is computed by a module and not by a query. -/
  byModule : Bool
  deriving DecidableEq, Repr

structure Schema where
  tables : List TableShape
  views : List View
  indexes : List IndexShape
  deriving DecidableEq, Repr

namespace Schema

def empty : Schema := ⟨[], [], []⟩

inductive Change where
  | createTable (table : TableShape)
  | createIndex (index : IndexShape)
  | dropTable (name : String)
  deriving DecidableEq, Repr

/-- The same name, ASCII case aside. -/
def sameName (a b : String) : Bool := a.toList.map Char.toLower == b.toList.map Char.toLower

def table? (s : Schema) (name : String) : Option TableShape :=
  s.tables.find? fun t => sameName t.name name

def view? (s : Schema) (name : String) : Option View := s.views.find? fun v => sameName v.name name

def index? (s : Schema) (name : String) : Option IndexShape :=
  s.indexes.find? fun i => sameName i.name name

/-- The name is that of a table or view. -/
def hasTable (s : Schema) (name : String) : Bool := (s.table? name).isSome || (s.view? name).isSome

/-- The indexes of a table. -/
def indexesOf (s : Schema) (table : String) : List IndexShape :=
  s.indexes.filter fun i => sameName i.table table

def addTable (s : Schema) (t : TableShape) : Except DbError Schema :=
  if s.hasTable t.name then .ok s
  else if (s.index? t.name).isSome then .error (.nameOfIndex t.name)
  else .ok { s with tables := s.tables ++ [t] }

def addIndex (s : Schema) (i : IndexShape) : Except DbError Schema :=
  match s.table? i.table, s.view? i.table with
  | none, none => .error (.tableMissing i.table)
  | none, some v => .error (if v.byModule then .virtualTableIndexed else .viewIndexed)
  | some _, _ =>
    if s.hasTable i.name then .error (.nameOfTable i.name)
    else if (s.index? i.name).isSome then .ok s
    else .ok { s with indexes := s.indexes ++ [i] }

def dropTable (s : Schema) (name : String) : Except DbError Schema :=
  if (s.table? name).isSome then
    .ok { s with
      tables := s.tables.filter fun t => !sameName t.name name
      indexes := s.indexes.filter fun i => !sameName i.table name }
  else .error (.tableMissing name)

def apply (s : Schema) : Change → Except DbError Schema
  | .createTable t => s.addTable t
  | .createIndex i => s.addIndex i
  | .dropTable name => s.dropTable name

/-- One change after the other, as far as they go. -/
def applyAll (s : Schema) (changes : List Change) : Except DbError Schema := changes.foldlM apply s

/-! ## Looking at a schema -/

def tableNames (s : Schema) : List String := Text.sorted (s.tables.map (·.name))

def indexNames (s : Schema) : List String := Text.sorted (s.indexes.map (·.name))

/-- What there is to say about one table; a missing table has nothing. -/
structure Description where
  columns : List Column
  /-- By the name of the column. -/
  references : List Reference
  /-- By name. -/
  indexes : List IndexShape
  deriving DecidableEq, Repr

def describe (s : Schema) (name : String) : Description where
  columns := ((s.table? name).map (·.columns)).getD []
  references := (((s.table? name).map (·.references)).getD []).mergeSort fun a b => a.column ≤ b.column
  indexes := (s.indexesOf name).mergeSort fun a b => a.name ≤ b.name

end Schema

end Rollbook
