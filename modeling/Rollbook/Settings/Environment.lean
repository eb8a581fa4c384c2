import Rollbook.Text.Quoted
/-
  Rollbook.Settings.Environment — the variables of a process.

  They are entries `NAME=value`. A look-up takes the first entry that starts with
  the name and an equals sign, so what is looked up may hold an equals sign itself.
  Nothing is found under an empty name or one with a NUL, and a value with a NUL
  cannot be set.
-/

namespace Rollbook

structure Environment where
  entries : List String
  deriving DecidableEq, Repr

namespace Environment

def entry (name value : String) : String := name ++ "=" ++ value

def ofPairs (pairs : List (String × String)) : Environment := ⟨pairs.map fun p => entry p.1 p.2⟩

/-- The text behind `start` in an entry that starts so. -/
def valueBehind? (start : List Char) (e : String) : Option String :=
  if start.isPrefixOf e.toList then some (String.ofList (e.toList.drop start.length)) else none

def hasNul (s : String) : Bool := s.toList.contains '\x00'

def get? (e : Environment) (name : String) : Option String :=
  if name.isEmpty || hasNul name then none
  else e.entries.findSome? (valueBehind? (entry name "").toList)

/-- A variable and the value that it cannot have. -/
structure Refusal where
  name : String
  value : String
  deriving DecidableEq, Repr

def Refusal.message (r : Refusal) : String :=
  "failed to set environment variable `" ++ Text.quotedWith true r.name ++ "` to `" ++
    Text.quotedWith true r.value ++ "`: file name contained an unexpected NUL byte"

/-- Sets a variable that is not set yet. -/
def set? (e : Environment) (name value : String) : Except Refusal Environment :=
  if hasNul value then .error ⟨name, value⟩ else .ok ⟨e.entries ++ [entry name value]⟩

end Environment

end Rollbook
