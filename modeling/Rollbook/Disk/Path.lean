import Rollbook.Text.Cut
/-
  Rollbook.Disk.Path — the paths of files and folders.

  A path is a list of names with slashes between them. Several slashes count as
  one, and a dot counts as nothing unless the path begins with it. A path that
  ends with a slash or a dot names a folder. The parent of a path is what is left
  without its last name, and the slashes and dots at its end go with it; a path
  without names has none. What counts as nothing still adds to the size of a path.
-/

namespace Rollbook

/-- Where a path starts. -/
inductive Path.Base where
  /-- A slash. -/
  | root
  /-- A dot. -/
  | dot
  /-- The first name. -/
  | name
  deriving DecidableEq, Repr

structure Path where
  base : Path.Base
  /-- What stands between the slashes after the base. -/
  parts : List String
  deriving DecidableEq, Repr

namespace Path

open Rollbook.Text

def ofText (text : String) : Path :=
  let split (cs : List Char) := (splitAt '/' cs).map String.ofList
  match text.toList with
  | '/' :: cs => ⟨.root, split cs⟩
  | ['.'] => ⟨.dot, []⟩
  | '.' :: '/' :: cs => ⟨.dot, split cs⟩
  | cs => ⟨.name, split cs⟩

/-- The part counts as nothing. -/
def isBlankPart (part : String) : Bool := part = "" || part = "."

def absolute (p : Path) : Bool := p.base = .root

def names (p : Path) : List String :=
  (if p.base = .dot then ["."] else []) ++ p.parts.filter fun part => !isBlankPart part

/-- Only a folder can be meant. -/
def folder (p : Path) : Bool := p.parts.getLast?.any isBlankPart

/-- The path says nothing at all. -/
def isEmpty (p : Path) : Bool := !p.absolute && p.names.isEmpty

/-- How many bytes the path takes when it is written. -/
def size (p : Path) : Nat :=
  let parts := p.parts.foldl (fun size part => size + part.utf8ByteSize) 0
  match p.base with
  | .root => 1 + parts + (p.parts.length - 1)
  | .dot => 1 + parts + p.parts.length
  | .name => parts + (p.parts.length - 1)

def parent? (p : Path) : Option Path :=
  match p.parts.reverse.dropWhile isBlankPart with
  | [] => if p.base = .dot then some ⟨.name, []⟩ else none
  | _ :: rest => some ⟨p.base, (rest.dropWhile isBlankPart).reverse⟩

/-- A bound on how often a path has a parent. -/
def depth (p : Path) : Nat := p.parts.length + if p.base = .dot then 1 else 0

theorem depth_of_parent? {p q : Path} (h : p.parent? = some q) : q.depth < p.depth := by
  unfold parent? at h
  split at h
  · split at h
    · rename_i hb
      cases h
      simp [depth, hb]
    · contradiction
  · rename_i name rest hd
    cases h
    have h1 := (List.dropWhile_suffix (l := p.parts.reverse) isBlankPart).length_le
    have h2 := (List.dropWhile_suffix (l := rest) isBlankPart).length_le
    rw [hd] at h1
    simp only [List.length_cons, List.length_reverse] at h1
    simp only [depth, List.length_reverse]
    omega

end Path

end Rollbook
