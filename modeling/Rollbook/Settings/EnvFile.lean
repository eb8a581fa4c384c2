import Rollbook.Keyed
import Rollbook.Settings.Environment
import Rollbook.Text.Alphanumeric
import Rollbook.Text.Blank
/-
  Rollbook.Settings.EnvFile — files that set environment variables.

  A file is a list of lines `NAME=value`, each with an optional `export` in front.
  A line goes on over line breaks inside of quotes. A `#` after a blank starts a
  comment, and a line that begins with one is skipped.

  A value is taken as it stands in single quotes. In double quotes and outside of
  quotes a backslash escapes a few characters and a dollar sign substitutes a
  variable, given by the letters and digits after it or by anything in braces.
  Outside of quotes the first blank ends the value, and only blanks or a comment
  may follow.

  Variables that are set already keep their value. The first line that cannot be
  read, or whose value cannot be set, ends the reading; what came before it counts.
  A text that ends inside of a quote, or with a blank before no line break, ends
  with a line that cannot be read.
-/

namespace Rollbook

namespace EnvFile

open Rollbook.Text

/-! ## Lines -/

/-- The lines of a text, each with the line break at its end. -/
def breakLines : List Char → List (List Char)
  | [] => []
  | '\n' :: cs => ['\n'] :: breakLines cs
  | c :: cs =>
    match breakLines cs with
    | [] => [[c]]
    | line :: rest => (c :: line) :: rest

/-- Where the search for the end of a line stands. -/
inductive Margin where
  /-- The line may end here. -/
  | complete
  | blank
  | escape
  | single
  | singleEscape
  | double
  | doubleEscape
  deriving DecidableEq, Repr

namespace Margin

/-- A character outside of quotes that is not escaped. -/
def outside (c : Char) : Margin :=
  if c = '\\' then .escape
  else if c = '"' then .double
  else if c = '\'' then .single
  else .complete

def next (m : Margin) (c : Char) : Margin :=
  match m with
  | .complete => if isBlank c && c ≠ '\n' && c ≠ '\r' then .blank else outside c
  | .blank => outside c
  | .escape => .complete
  | .double => if c = '\\' then .doubleEscape else if c = '"' then .complete else .double
  | .doubleEscape => .double
  | .single => if c = '\\' then .singleEscape else if c = '\'' then .complete else .single
  | .singleEscape => .single

/-- The text up to a comment, if one starts in it, or where it stands at the end of the text. -/
def scan (m : Margin) : List Char → Margin ⊕ List Char
  | [] => .inl m
  | c :: cs =>
    if m = .blank && c = '#' then .inr []
    else match scan (m.next c) cs with
      | .inl m => .inl m
      | .inr before => .inr (c :: before)

end Margin

/-- The text without a line break at its end. -/
def withoutBreak (cs : List Char) : List Char :=
  match cs.reverse with
  | '\n' :: '\r' :: rest => rest.reverse
  | '\n' :: rest => rest.reverse
  | _ => cs

/-- Joins lines that go on over a line break; what is not complete at the end is left out. -/
def joinLines (m : Margin) (before : List Char) : List (List Char) → List (List Char)
  | [] => []
  | line :: rest =>
    let all := before ++ line
    if (dropBlanks all).head? = some '#' then joinLines .complete [] rest
    else match m.scan line with
      | .inr start => (before ++ start) :: joinLines .complete [] rest
      | .inl .complete => withoutBreak all :: joinLines .complete [] rest
      | .inl m' => joinLines m' all rest

/-! ## Values -/

/-- Where the reading of a value stands. -/
inductive Mode where
  | plain
  | single
  | double
  | escape (inQuotes : Bool)
  /-- After a dollar sign, with the letters and digits since then, last first. -/
  | dollar (inQuotes : Bool) (name : List Char)
  /-- After a dollar sign and a brace, with the characters since then, last first. -/
  | braced (inQuotes : Bool) (name : List Char)
  /-- After the blank that ended the value. -/
  | ended
  /-- In a comment. -/
  | comment
  deriving DecidableEq, Repr

/-- Back where the substitution or escape started. -/
def Mode.resume (inQuotes : Bool) : Mode := if inQuotes then .double else .plain

/-- What an escaped character stands for. -/
def escaped? (c : Char) : Option Char :=
  if c ∈ ['\\', '\'', '"', '$', ' '] then some c else if c = 'n' then some '\n' else none

/-- The mode after a character and the characters that it adds to the value. -/
def valueStep (lookup : List Char → List Char) (m : Mode) (c : Char) : Option (Mode × List Char) :=
  match m with
  | .comment => some (.comment, [])
  | .ended =>
    if c = ' ' || c = '\t' then some (.ended, []) else if c = '#' then some (.comment, []) else none
  | .escape q => (escaped? c).map fun d => (.resume q, [d])
  | .single => some (if c = '\'' then (.plain, []) else (.single, [c]))
  | .dollar q name =>
    if isAlphanumeric c then some (.dollar q (c :: name), [])
    else if c = '\x7b' && name.isEmpty then some (.braced q [], [])
    else if c = '$' then some (.dollar q [], lookup name.reverse)
    else some (.resume q, lookup name.reverse ++ [c])
  | .braced q name =>
    if c = '\x7d' then some (.resume q, lookup name.reverse) else some (.braced q (c :: name), [])
  | .double =>
    some <|
      if c = '$' then (.dollar true [], [])
      else if c = '"' then (.plain, [])
      else if c = '\\' then (.escape true, [])
      else (.double, [c])
  | .plain =>
    some <|
      if c = '$' then (.dollar false [], [])
      else if c = '\'' then (.single, [])
      else if c = '"' then (.double, [])
      else if c = '\\' then (.escape false, [])
      else if c = ' ' || c = '\t' then (.ended, [])
      else (.plain, [c])

/-- What the end of the line adds to a value, if the value may end there. -/
def valueEnd (lookup : List Char → List Char) : Mode → Option (List Char)
  | .plain | .ended | .comment | .escape false => some []
  | .dollar false name => some (lookup name.reverse)
  | _ => none

/-- The value written in a text. -/
def readValue (lookup : List Char → List Char) (m : Mode) : List Char → Option (List Char)
  | [] => valueEnd lookup m
  | c :: cs =>
    match valueStep lookup m c with
    | none => none
    | some (m', added) => (readValue lookup m' cs).map (added ++ ·)

/-! ## Assignments -/

def isNameStart (c : Char) : Bool := c.isAlpha || c = '_'

def isNameChar (c : Char) : Bool := c.isAlphanum || c = '_' || c = '.'

/-- A name, and what follows it after blanks. -/
def readName (cs : List Char) : Option (List Char × List Char) :=
  if cs.head?.any isNameStart then some (cs.takeWhile isNameChar, dropBlanks (cs.dropWhile isNameChar))
  else none

/-- The text after an equals sign. -/
def afterEquals : List Char → Option (List Char)
  | '=' :: rest => some rest
  | _ => none

/-- The name and the written value of a line. The word `export` is a name too when an equals sign
    follows it. -/
def readAssignment (cs : List Char) : Option (List Char × List Char) := do
  let (name, rest) ← readName cs
  match afterEquals rest with
  | some value => some (name, value)
  | none =>
    if name = "export".toList then
      let (name, rest) ← readName rest
      let value ← afterEquals rest
      some (name, value)
    else none

/-! ## Files -/

/-- The variables of a process and the values that lines have assigned, whether or not they count. -/
structure Loading where
  environment : Environment
  assigned : List (String × String)

/-- Why the reading of a file ends before its end. -/
inductive Stop where
  | unreadable
  | refused (why : Environment.Refusal)
  deriving DecidableEq, Repr

/-- What a dollar sign substitutes: a variable, else an assigned value, else nothing. -/
def Loading.substitute (l : Loading) (name : List Char) : List Char :=
  let name := String.ofList name
  match l.environment.get? name with
  | some value => value.toList
  | none => ((l.assigned.lookup name).getD "").toList

def Loading.assign (l : Loading) (name value : String) : Except Stop Loading :=
  let assigned := Keyed.put name value l.assigned
  match l.environment.get? name with
  | some _ => .ok { l with assigned }
  | none =>
    match l.environment.set? name value with
    | .ok environment => .ok ⟨environment, assigned⟩
    | .error why => .error (.refused why)

/-- The value written behind an equals sign. -/
def Loading.value? (l : Loading) (written : List Char) : Option String :=
  let written := dropBlanks written
  if written.isEmpty || written.head? == some '#' then some ""
  else (readValue l.substitute .plain written).map String.ofList

/-- The state after a line. -/
def Loading.line (l : Loading) (cs : List Char) : Except Stop Loading :=
  let cs := trimChars cs
  if cs.isEmpty || cs.head? == some '#' then .ok l
  else match readAssignment cs with
    | none => .error .unreadable
    | some (name, written) =>
      match l.value? written with
      | none => .error .unreadable
      | some value => l.assign (String.ofList name) value

/-- The state after the lines up to the one that ends the reading. -/
def Loading.lines (l : Loading) : List (List Char) → Loading × Option Stop
  | [] => (l, none)
  | line :: rest =>
    match l.line line with
    | .ok l' => l'.lines rest
    | .error why => (l, some why)

/-- The text without a byte order mark at its start. -/
def withoutMark : List Char → List Char
  | '\uFEFF' :: cs => cs
  | cs => cs

/-- The variables after a file was loaded, and why that ended early. -/
def load (text : String) (environment : Environment) : Environment × Option Stop :=
  let lines := joinLines .complete [] (breakLines (withoutMark text.toList))
  let (l, stop) := Loading.lines ⟨environment, []⟩ lines
  (l.environment, stop)

end EnvFile

end Rollbook
