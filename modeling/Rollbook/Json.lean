import Rollbook.Json.Token
/-
  Rollbook.Json — JSON values, read from a text and written as one.

  A value keeps what its text said: members in order with repetitions, numerals
  unrounded, and literals without a text (see `Rollbook.Json.Token`) as `none`.
  Which of these a reader accepts is up to whoever looks at the value.

  Reading is one pass over the tokens with a stack of the open brackets, so it
  needs no bound on the depth. Writing is compact: no blanks, and in literals
  only quotes, backslashes and control characters are escaped.
-/

namespace Rollbook

inductive Json where
  | null
  | bool (b : Bool)
  | number (n : Json.Numeral)
  | string (text : Option String)
  | array (items : List Json)
  | object (members : List (Option String × Json))
  deriving Repr

namespace Json

def text (s : String) : Json := .string (some s)
def ofInt (i : Int) : Json := .number (.ofInt i)
def ofNat (n : Nat) : Json := .ofInt n

/-- An object whose member names are texts. -/
def record (members : List (String × Json)) : Json :=
  .object (members.map fun m => (some m.1, m.2))

/-! ## Reading -/

/-- An open bracket, with what it holds so far (last first). -/
inductive Frame where
  | items (done : List Json)
  | members (done : List (Option String × Json)) (key : Option String)

/-- What the reader has before it, above a stack of open brackets. -/
inductive Reading where
  /-- A value is due. -/
  | value (stack : List Frame)
  /-- Just after an opening bracket: a value or the closing bracket. -/
  | firstItem (stack : List Frame)
  /-- Just after an opening brace: a member name or the closing brace. -/
  | firstKey (stack : List Frame)
  /-- After a comma in an object: a member name. -/
  | key (stack : List Frame) (done : List (Option String × Json))
  /-- After a member name: the colon. -/
  | colon (stack : List Frame) (done : List (Option String × Json)) (key : Option String)
  /-- A value was completed. -/
  | complete (stack : List Frame) (v : Json)

namespace Reading

/-- The start of a value. -/
def begin (stack : List Frame) : Token → Option Reading
  | .openBrace => some (.firstKey stack)
  | .openBracket => some (.firstItem stack)
  | .null => some (.complete stack .null)
  | .bool b => some (.complete stack (.bool b))
  | .number n => some (.complete stack (.number n))
  | .string s => some (.complete stack (.string s))
  | _ => none

def step : Reading → Token → Option Reading
  | .value stack, t => begin stack t
  | .firstItem stack, .closeBracket => some (.complete stack (.array []))
  | .firstItem stack, t => begin (.items [] :: stack) t
  | .firstKey stack, .closeBrace => some (.complete stack (.object []))
  | .firstKey stack, .string k => some (.colon stack [] k)
  | .key stack done, .string k => some (.colon stack done k)
  | .colon stack done k, .colon => some (.value (.members done k :: stack))
  | .complete (.items done :: stack) v, .comma => some (.value (.items (v :: done) :: stack))
  | .complete (.items done :: stack) v, .closeBracket =>
    some (.complete stack (.array (v :: done).reverse))
  | .complete (.members done k :: stack) v, .comma => some (.key stack ((k, v) :: done))
  | .complete (.members done k :: stack) v, .closeBrace =>
    some (.complete stack (.object ((k, v) :: done).reverse))
  | _, _ => none

/-- The whole value, once nothing is open. -/
def finish : Reading → Option Json
  | .complete [] v => some v
  | _ => none

/-- Reads on over the remaining tokens. -/
def run (r : Reading) : List Token → Option Json
  | [] => r.finish
  | t :: ts =>
    match r.step t with
    | none => none
    | some r' => run r' ts

end Reading

/-- The value whose tokens these are, with nothing before or after it. -/
def ofTokens? (ts : List Token) : Option Json := Reading.run (.value []) ts

/-- Reads a text that holds exactly one value. -/
def read? (cs : List Char) : Option Json :=
  match Token.cut cs with
  | none => none
  | some ts => ofTokens? ts

def ofString? (s : String) : Option Json := read? s.toList

/-! ## Writing -/

def hexDigit (n : Nat) : Char := Nat.digitChar n

/-- A character of a literal as it is written. -/
def writeChar (c : Char) : List Char :=
  if c = '"' then ['\\', '"']
  else if c = '\\' then ['\\', '\\']
  else if c = '\x08' then ['\\', 'b']
  else if c = '\x0c' then ['\\', 'f']
  else if c = '\n' then ['\\', 'n']
  else if c = '\r' then ['\\', 'r']
  else if c = '\t' then ['\\', 't']
  else if c.toNat < 0x20 then
    ['\\', 'u', '0', '0', hexDigit (c.toNat / 16), hexDigit (c.toNat % 16)]
  else [c]

/-- A literal as it is written; one without a text is written as half of a surrogate pair. -/
def writeLiteral : Option String → List Char
  | some s => '"' :: s.toList.flatMap writeChar ++ ['"']
  | none => "\"\\ud800\"".toList

mutual

/-- The compact text of a value. -/
def write : Json → List Char
  | .null => "null".toList
  | .bool true => "true".toList
  | .bool false => "false".toList
  | .number n => n.write
  | .string s => writeLiteral s
  | .array items => '[' :: writeItems items ++ [']']
  | .object members => '{' :: writeMembers members ++ ['}']

/-- The items of an array with commas between them. -/
def writeItems : List Json → List Char
  | [] => []
  | [v] => write v
  | v :: w :: vs => write v ++ ',' :: writeItems (w :: vs)

/-- The members of an object with commas between them. -/
def writeMembers : List (Option String × Json) → List Char
  | [] => []
  | [(k, v)] => writeLiteral k ++ ':' :: write v
  | (k, v) :: m :: ms => writeLiteral k ++ ':' :: (write v ++ ',' :: writeMembers (m :: ms))

end

def compact (v : Json) : String := String.ofList v.write

/-! ## Looking into a value -/

/-- The values of the members with this name, in order. -/
def valuesOf (name : String) (members : List (Option String × Json)) : List Json :=
  members.filterMap fun m => if m.1 = some name then some m.2 else none

/-- The value of the only member with this name; missing or repeated, there is none. -/
def only? (name : String) (members : List (Option String × Json)) : Option Json :=
  match valuesOf name members with
  | [v] => some v
  | _ => none

/-- Every member name is a text. -/
def keysSound (members : List (Option String × Json)) : Bool :=
  members.all fun m => m.1.isSome

mutual

/-- How many brackets deep a value goes. -/
def depth : Json → Nat
  | .array items => depthItems items + 1
  | .object members => depthMembers members + 1
  | _ => 0

def depthItems : List Json → Nat
  | [] => 0
  | v :: vs => max (depth v) (depthItems vs)

def depthMembers : List (Option String × Json) → Nat
  | [] => 0
  | (_, v) :: ms => max (depth v) (depthMembers ms)

end

mutual

/-- Every literal in the value has a text and every numeral is a finite double. -/
def sound : Json → Bool
  | .number n => n.isFinite
  | .string s => s.isSome
  | .array items => soundItems items
  | .object members => soundMembers members
  | _ => true

def soundItems : List Json → Bool
  | [] => true
  | v :: vs => sound v && soundItems vs

def soundMembers : List (Option String × Json) → Bool
  | [] => true
  | (k, v) :: ms => k.isSome && (sound v && soundMembers ms)

end

end Json

end Rollbook
