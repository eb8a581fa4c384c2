import Rollbook.Database
import Rollbook.Text.Blank
import Rollbook.Text.Digits
import Rollbook.Text.Utf8
/-
  Rollbook.Database.Image — a database in the bytes of a file.

  The bytes are cut into pages of one size, and the header in front of the first
  page says how. A table is a tree of pages with its rows in the leaves, and the
  first page is the root of the catalogue, whose rows name the tables, views and
  indexes of the database with the statements that made them. Only these names are
  read. Large numbers stand with their first byte first; numbers in rows take seven
  bits of each byte, and the last byte is the one whose eighth bit is not set.

  What a file says about itself may be wrong in many ways. Without the mark at its
  start, or with a header that makes no sense, it is no database; pages and rows
  that contradict each other are damage, and so is a row that goes on on another
  page.
-/

namespace Rollbook.Database

/-- A file cut into pages, which are counted from 1. -/
structure Image where
  bytes : Array UInt8
  pageSize : Nat
  /-- How many bytes of a page hold content. -/
  usable : Nat
  pages : Nat
  deriving Repr

namespace Image

open Rollbook.Text

/-! ## Numbers -/

/-- A byte; those after the end count as zero. -/
def byteAt (bytes : Array UInt8) (pos : Nat) : Nat := (bytes[pos]?.map UInt8.toNat).getD 0

/-- The number in `count` bytes. -/
def numberAt (bytes : Array UInt8) (pos count : Nat) : Nat :=
  (List.range count).foldl (fun n k => n * 256 + byteAt bytes (pos + k)) 0

/-- Goes on reading a number of which `n` was read, and answers the position after it as well. The
    byte after `left` marked ones is the last and counts whole. -/
def numeralFrom (bytes : Array UInt8) (n pos : Nat) : Nat → Nat × Nat
  | 0 => (n * 256 + byteAt bytes pos, pos + 1)
  | left + 1 =>
    let b := byteAt bytes pos
    if b < 128 then (n * 128 + b, pos + 1)
    else numeralFrom bytes (n * 128 + (b - 128)) (pos + 1) left

/-- The number in a row that starts at a position, and the position after it. -/
def numeralAt (bytes : Array UInt8) (pos : Nat) : Nat × Nat := numeralFrom bytes 0 pos 8

/-! ## The header -/

/-- The mark at the start of a database. -/
def startMark : List UInt8 := Utf8.encode "SQLite format 3\x00".toList

def headerSize : Nat := 100

/-- The sizes that a page can have. -/
def pageSizes : List Nat := [512, 1024, 2048, 4096, 8192, 16384, 32768, 65536]

/-- The least number of bytes with content in a page. -/
def leastUsable : Nat := 480

/-- The last version of the file format that can be read, and of the rules for statements. -/
def lastFormat : Nat := 2

def lastRules : Nat := 4

/-- How many pages there are by the header, which counts only if it was written together with the
    file's last change. -/
def statedPages? (bytes : Array UInt8) : Option Nat :=
  let n := numberAt bytes 28 4
  if n ≠ 0 ∧ numberAt bytes 24 4 = numberAt bytes 92 4 then some n else none

/-- Cuts a file into pages. -/
def ofBytes? (bytes : Array UInt8) : Except DbError Image :=
  let pageSize := byteAt bytes 16 * 256 + byteAt bytes 17 * 65536
  let usable := pageSize - byteAt bytes 20
  let held := (bytes.size + pageSize - 1) / pageSize
  let pages := (statedPages? bytes).getD held
  if (bytes.extract 0 startMark.length).toList ≠ startMark ∨ lastFormat < byteAt bytes 19 ∨
      (List.range 3).map (fun k => byteAt bytes (21 + k)) ≠ [64, 32, 32] ∨ pageSize ∉ pageSizes then
    .error .notADatabase
  else if held < pages then .error .malformed
  else if usable < leastUsable then .error .notADatabase
  else .ok ⟨bytes, pageSize, usable, pages⟩

/-- The file may be changed. -/
def isWritable (i : Image) : Bool := byteAt i.bytes 18 ≤ lastFormat

/-! ## Trees of pages -/

def pageStart (i : Image) (page : Nat) : Nat := (page - 1) * i.pageSize

/-- The positions of the cells of a page, whose own header has `size` bytes and starts at `pos`. -/
def cellsAt (i : Image) (page pos size : Nat) : List Nat :=
  (List.range (numberAt i.bytes (pos + 3) 2)).map fun k =>
    i.pageStart page + numberAt i.bytes (pos + size + 2 * k) 2 % i.pageSize

/-- The most pages on the way from a root to a leaf. -/
def deepest : Nat := 20

/-- The positions of the rows below a page, in order. -/
def rowsBelow (i : Image) : Nat → Nat → Except DbError (List Nat)
  | 0, _ => .error .malformed
  | depth + 1, page =>
    let pos := i.pageStart page + if page = 1 then headerSize else 0
    if page = 0 ∨ i.pages < page ∨ (i.pageSize - 8) / 6 < numberAt i.bytes (pos + 3) 2 then
      .error .malformed
    else match byteAt i.bytes pos with
      | 13 => .ok (i.cellsAt page pos 8)
      | 5 => do
        let children := (i.cellsAt page pos 12).map fun cell => numberAt i.bytes cell 4
        let rows ← (children ++ [numberAt i.bytes (pos + 8) 4]).mapM (i.rowsBelow depth)
        return rows.flatten
      | _ => .error .malformed

/-! ## Rows -/

/-- How many bytes a field of a type takes. -/
def fieldSize (type : Nat) : Nat :=
  match type with
  | 5 => 6
  | 6 | 7 => 8
  | n => if n < 5 then n else if n < 12 then 0 else (n - 12) / 2

/-- The text of a field with its type, up to a NUL; numbers are written out. -/
def fieldText (bytes : Array UInt8) (pos type : Nat) : Option String :=
  if type = 0 then none
  else if type < 7 then
    let n := numberAt bytes pos (fieldSize type)
    let bound := Nat.pow 256 (fieldSize type)
    some (toString (if 2 * n < bound then (n : Int) else n - bound))
  else if type = 8 then some "0"
  else if type = 9 then some "1"
  else
    let content := (bytes.extract pos (pos + fieldSize type)).toList
    some (String.ofList (Utf8.decodeLossy (content.takeWhile (· ≠ 0))))

/-- The types of the fields of a row, given from `pos` to `stop`. -/
def fieldTypes (bytes : Array UInt8) (stop pos : Nat) : Nat → List Nat
  | 0 => []
  | left + 1 =>
    if stop ≤ pos then []
    else
      let (type, next) := numeralAt bytes pos
      type :: fieldTypes bytes stop next left

def fieldsSize (types : List Nat) : Nat := types.foldl (fun size type => size + fieldSize type) 0

/-- The texts of fields that stand one after the other. -/
def fieldTexts (bytes : Array UInt8) (pos : Nat) : List Nat → List (Option String)
  | [] => []
  | type :: types =>
    fieldText bytes pos type :: fieldTexts bytes (pos + fieldSize type) types

/-- The fields of the row at a position: after its size and number come the types of the fields, led
    by how many bytes they take, and then the fields themselves. -/
def rowAt (i : Image) (cell : Nat) : Except DbError (List (Option String)) :=
  let (size, pos) := numeralAt i.bytes cell
  let (_, start) := numeralAt i.bytes pos
  let (types, first) := numeralAt i.bytes start
  let fields := fieldTypes i.bytes (start + types) first size
  if i.usable - 35 < size ∨ i.bytes.size < start + size ∨
      size < types + fieldsSize fields then .error .malformed
  else .ok (fieldTexts i.bytes (start + types) fields)

/-! ## The catalogue -/

/-- A row of the catalogue. -/
structure Item where
  type : Option String
  name : Option String
  table : Option String
  /-- The page at which its rows start. -/
  root : Option String
  statement : Option String
  deriving DecidableEq, Repr

def Item.ofFields (fields : List (Option String)) : Item :=
  let field (k : Nat) := fields[k]?.bind id
  ⟨field 0, field 1, field 2, field 3, field 4⟩

def isNamePart (c : Char) : Bool := c.isAlphanum || c = '_'

/-- What follows a word in a statement. -/
def afterWord? (statement : List Char) (word : String) : Option (List Char) :=
  let cs := dropBlanks statement
  let rest := cs.drop word.length
  if word.toList.isPrefixOf cs && !rest.head?.any isNamePart then some rest else none

def afterWords? (statement : List Char) (words : List String) : Option (List Char) :=
  words.foldlM afterWord? statement

/-- The words for the kinds of things that are made, and the types of their items. -/
def kinds : List (List String × String) :=
  [(["table"], "table"), (["virtual", "table"], "table"), (["view"], "view"), (["index"], "index"),
   (["unique", "index"], "index"), (["trigger"], "trigger")]

/-- A statement names a thing, perhaps in quotes, at its start. -/
def names (statement : List Char) (name : List Char) : Bool :=
  match dropBlanks statement with
  | [] => false
  | c :: cs =>
    if c ∈ ['"', '[', '\x60'] then name.isPrefixOf cs
    else name.isPrefixOf (c :: cs) && !((c :: cs).drop name.length).head?.any isNamePart

/-- The type of item that a statement makes, if it makes one of that name. -/
def typeOf? (statement : String) (name : String) : Option String :=
  let small (s : String) := s.toList.map Char.toLower
  (afterWord? (small statement) "create").bind fun cs =>
    kinds.findSome? fun (words, type) =>
      (afterWords? cs words).bind fun rest =>
        let rest := (afterWords? rest ["if", "not", "exists"]).getD rest
        if names rest (small name) then some type else none

/-- The number of a page in a row of the catalogue. -/
def pageNumber? (text : String) : Option Nat :=
  let cs := text.toList
  if !cs.isEmpty && cs.all Char.isDigit && value cs < 4294967296 then some (value cs) else none

/-- The schema with an item. -/
def Item.make (item : Item) (statement : String) (s : Schema) : Except DbError Schema :=
  let name := item.name.getD ""
  let table := item.table.getD ""
  let damage (detail : String) := .error (.malformedSchema (item.name.getD "?") detail)
  let byModule := (afterWords? (statement.toList.map Char.toLower) ["create", "virtual"]).isSome
  let clash := if (s.view? name).any (!·.byModule) then "view" else "table"
  if item.type.isNone ∨ item.type ≠ typeOf? statement name then damage ""
  else match item.type with
    | some "index" =>
      if !s.hasTable table then damage s!"no such table: main.{table}"
      else if (s.index? name).isSome then damage s!"index {name} already exists"
      else .ok { s with indexes := s.indexes ++ [⟨name, table, false, []⟩] }
    | some "trigger" => .ok s
    | type =>
      if !Schema.sameName name table then damage ""
      else if s.hasTable name then damage s!"{clash} {name} already exists"
      else if type = some "table" ∧ !byModule then
        .ok { s with tables := s.tables ++ [⟨name, [], []⟩] }
      else .ok { s with views := s.views ++ [⟨name, byModule⟩] }

/-- How the names of indexes start that belong to a key and have no statement. -/
def keyIndexStart : String := "sqlite_autoindex_"

/-- The schema with an item, if the page it names is there. -/
def addItem (i : Image) (s : Schema) (item : Item) : Except DbError Schema :=
  let damage (detail : String) := .error (.malformedSchema (item.name.getD "?") detail)
  let statement := item.statement.getD ""
  match item.root, item.name with
  | none, _ => damage ""
  | some root, name =>
    if "cr".toList.isPrefixOf (statement.toList.map Char.toLower) then
      if (pageNumber? root).any (· ≤ i.pages) then item.make statement s
      else damage "invalid rootpage"
    else match name with
      | none => damage ""
      | some name =>
        if statement ≠ "" then damage ""
        else if keyIndexStart.toList.isPrefixOf name.toList ∧ s.hasTable (item.table.getD "") then
          .ok s
        else damage "orphan index"

/-- The schema that the catalogue describes. -/
def schema? (i : Image) : Except DbError Schema :=
  if lastRules < byteAt i.bytes 47 then .error .unsupportedFormat
  else do
    let rows ← i.rowsBelow deepest 1
    rows.foldlM (fun s row => do i.addItem s (Item.ofFields (← i.rowAt row))) .empty

end Image

end Rollbook.Database
