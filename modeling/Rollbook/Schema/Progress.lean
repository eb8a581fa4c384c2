import Rollbook.Schema.BuiltIn
import Rollbook.Schema.Migration
/-
  Rollbook.Schema.Progress — a database with a record of its migrations.

  The names of the migrations that were applied are kept in a table of their own,
  which is created the first time any command is given and stays from then on. Up
  applies the migrations that are not recorded, in order; down takes back the
  recorded ones, last first. With a count they stop after so many. A migration is
  recorded, or its record removed, once all of its changes are made.

  Besides the tables that every database has there is one of the last numbers given
  once a table whose rows are numbered was created; it stays when that is dropped.
-/

namespace Rollbook

/-- A database and how far it was migrated. -/
structure Progress where
  schema : Schema
  /-- The recorded names; none before there is a record. -/
  recorded : Option (List String)
  /-- There has been a table whose rows are numbered. -/
  numbering : Bool
  deriving DecidableEq

namespace Progress

def new : Progress := ⟨.empty, none, false⟩

/-- The table that keeps the names. -/
def recordTable : TableShape where
  name := "seaql_migrations"
  columns := [⟨"version", "varchar", true, none, 1⟩, Migration.required "applied_at" "bigint"]
  references := []

def names (p : Progress) : List String := p.recorded.getD []

/-- The recorded migrations, in their order. -/
def applied (p : Progress) : List Migration := Migration.all.filter fun m => m.name ∈ p.names

def pending (p : Progress) : List Migration := Migration.all.filter fun m => m.name ∉ p.names

/-- Makes sure that there is a record. -/
def install (p : Progress) : Progress := { p with recorded := some p.names }

/-- The rows of the table are numbered by the engine. -/
def isNumbered (t : TableShape) : Bool := t.columns.any fun c => c = Migration.idColumn

def createsNumbered : Schema.Change → Bool
  | .createTable t => isNumbered t
  | _ => false

def applyUp (p : Progress) (m : Migration) : Except DbError Progress :=
  (p.schema.applyAll m.up).map fun s =>
    ⟨s, some (p.names ++ [m.name]), p.numbering || m.up.any createsNumbered⟩

def applyDown (p : Progress) (m : Migration) : Except DbError Progress :=
  (p.schema.applyAll m.down).map fun s =>
    { p with schema := s, recorded := some (p.names.filter fun n => n ≠ m.name) }

/-- At most `count` of a list, all of it without a count. -/
def atMost {α : Type} (count : Option Nat) (as : List α) : List α :=
  match count with
  | some n => as.take n
  | none => as

def up (count : Option Nat) (p : Progress) : Except DbError Progress :=
  (atMost count p.pending).foldlM applyUp p.install

def down (count : Option Nat) (p : Progress) : Except DbError Progress :=
  (atMost count p.applied.reverse).foldlM applyDown p.install

/-- Takes everything back and applies it again. -/
def refresh (p : Progress) : Except DbError Progress := do
  let p ← p.down none
  p.up none

/-- Takes everything back. -/
def reset (p : Progress) : Except DbError Progress := p.down none

/-- The schema with the table of the record in it. -/
def wholeSchema (p : Progress) : Schema :=
  if p.recorded.isSome then { p.schema with tables := p.schema.tables ++ [recordTable] } else p.schema

/-- What there is to say about the table of a name, which ends at a NUL. -/
def describe (p : Progress) (name : String) : Schema.Description :=
  let name := String.ofList (name.toList.takeWhile (· ≠ '\x00'))
  let numbers := if p.numbering then [Schema.lastNumbers] else []
  let s := p.wholeSchema
  { s with tables := Schema.builtIn ++ numbers ++ s.tables }.describe name

end Progress

end Rollbook
