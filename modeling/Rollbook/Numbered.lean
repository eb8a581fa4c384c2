import Rollbook.Keyed
/-
  Rollbook.Numbered — tables whose rows are numbered as they come.

  A row gets the number after the last one ever given, so a number is never used
  again, not even after its row was removed; an insert that does not take place
  uses none. Once the largest number was given nothing more can be inserted.
-/

namespace Rollbook

structure Numbered (α : Type) where
  /-- The number given last, 0 before the first. -/
  last : Int64
  rows : List (Int64 × α)

namespace Numbered

variable {α : Type}

def empty : Numbered α := ⟨0, []⟩

/-- The table with one more row and the row's number. -/
def insert? (t : Numbered α) (row : α) : Option (Int64 × Numbered α) :=
  if t.last < Int64.maxValue then some (t.last + 1, ⟨t.last + 1, t.rows ++ [(t.last + 1, row)]⟩)
  else none

def get? (t : Numbered α) (id : Int64) : Option α := t.rows.lookup id

def contains (t : Numbered α) (id : Int64) : Bool := (t.get? id).isSome

def erase (t : Numbered α) (id : Int64) : Numbered α :=
  { t with rows := t.rows.filter fun row => row.1 ≠ id }

/-- Every row changed in place. -/
def map (f : α → α) (t : Numbered α) : Numbered α :=
  { t with rows := t.rows.map fun row => (row.1, f row.2) }

end Numbered

end Rollbook
