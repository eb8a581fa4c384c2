import Rollbook.Json.Numeral
/-
  Rollbook.Json.Token — cutting a JSON text into tokens.

  The cutter walks over the text once, a character at a time, in one of a few
  modes (between tokens, inside a word, a numeral, a quoted literal, an escape).
  Blanks between tokens leave no trace. A numeral ends at the first character
  that cannot continue it, and that character then starts the next token.

  A quoted literal denotes a text unless an escape in it names half of a
  surrogate pair without the other half. Such a literal is still a token, since a
  value nobody looks at may hold one; it just has no text (`none`).
-/

namespace Rollbook.Json

inductive Token where
  | openBrace
  | closeBrace
  | openBracket
  | closeBracket
  | colon
  | comma
  | null
  | bool (b : Bool)
  | number (n : Numeral)
  | string (text : Option String)
  deriving DecidableEq, Repr

/-! ## Numerals -/

/-- A numeral in the middle of being read; digits are kept last first. -/
inductive Figure where
  | minus
  | zero (negative : Bool)
  | whole (negative : Bool) (digits : List Char)
  | point (negative : Bool) (whole : Nat)
  | fraction (negative : Bool) (whole : Nat) (digits : List Char)
  | mark (negative : Bool) (whole : Nat) (fraction : List Char)
  | sign (negative : Bool) (whole : Nat) (fraction : List Char) (down : Bool)
  | power (negative : Bool) (whole : Nat) (fraction : List Char) (down : Bool) (digits : List Char)
  deriving Repr

namespace Figure

private def numeralDigits (reversed : List Char) : Nat := Text.value reversed.reverse

/-- The state after one more character, `none` when the character does not continue it. -/
def next (f : Figure) (c : Char) : Option Figure :=
  match f with
  | .minus => if c = '0' then some (.zero true) else if c.isDigit then some (.whole true [c]) else none
  | .zero n =>
    if c = '.' then some (.point n 0) else if c = 'e' || c = 'E' then some (.mark n 0 []) else none
  | .whole n ds =>
    if c.isDigit then some (.whole n (c :: ds))
    else if c = '.' then some (.point n (numeralDigits ds))
    else if c = 'e' || c = 'E' then some (.mark n (numeralDigits ds) [])
    else none
  | .point n w => if c.isDigit then some (.fraction n w [c]) else none
  | .fraction n w ds =>
    if c.isDigit then some (.fraction n w (c :: ds))
    else if c = 'e' || c = 'E' then some (.mark n w ds)
    else none
  | .mark n w fs =>
    if c = '+' then some (.sign n w fs false)
    else if c = '-' then some (.sign n w fs true)
    else if c.isDigit then some (.power n w fs false [c])
    else none
  | .sign n w fs down => if c.isDigit then some (.power n w fs down [c]) else none
  | .power n w fs down ds => if c.isDigit then some (.power n w fs down (c :: ds)) else none

/-- The numeral read so far, `none` when it stops where a digit is due. -/
def finish : Figure → Option Numeral
  | .zero n => some ⟨n, 0, none⟩
  | .whole n ds => some ⟨n, numeralDigits ds, none⟩
  | .fraction n w ds => some ⟨n, w, some ⟨ds.reverse, 0⟩⟩
  | .power n w fs down ds =>
    let e : Int := numeralDigits ds
    some ⟨n, w, some ⟨fs.reverse, if down then -e else e⟩⟩
  | .minus | .point .. | .mark .. | .sign .. => none

end Figure

/-! ## Quoted literals -/

/-- A literal in the middle of being read. -/
structure Quote where
  /-- The characters so far, last first. -/
  chars : List Char
  /-- No half of a surrogate pair has been left alone. -/
  sound : Bool
  /-- A first half that waits for its second. -/
  lead : Option Nat
  deriving Repr

namespace Quote

def start : Quote := ⟨[], true, none⟩

/-- Adds a character; a waiting first half stays alone. -/
def push (q : Quote) (c : Char) : Quote := ⟨c :: q.chars, q.sound && q.lead.isNone, none⟩

/-- Adds the 16-bit unit of a `\u` escape. -/
def pushUnit (q : Quote) (u : Nat) : Quote :=
  let first := 0xD800 ≤ u && u < 0xDC00
  let second := 0xDC00 ≤ u && u < 0xE000
  match q.lead with
  | some h =>
    if second then ⟨Char.ofNat (0x10000 + (h - 0xD800) * 0x400 + (u - 0xDC00)) :: q.chars, q.sound, none⟩
    else ⟨q.chars, false, none⟩
  | none =>
    if first then ⟨q.chars, q.sound, some u⟩
    else if second then ⟨q.chars, false, none⟩
    else ⟨Char.ofNat u :: q.chars, q.sound, none⟩

/-- The text of a closed literal. -/
def text (q : Quote) : Option String :=
  if q.sound && q.lead.isNone then some (String.ofList q.chars.reverse) else none

end Quote

/-- The character a one-letter escape stands for. -/
def escaped (c : Char) : Option Char :=
  if c = '"' then some '"'
  else if c = '\\' then some '\\'
  else if c = '/' then some '/'
  else if c = 'b' then some '\x08'
  else if c = 'f' then some '\x0c'
  else if c = 'n' then some '\n'
  else if c = 'r' then some '\r'
  else if c = 't' then some '\t'
  else none

def hexValue (c : Char) : Option Nat :=
  if c.isDigit then some (c.toNat - '0'.toNat)
  else if 'a' ≤ c && c ≤ 'f' then some (c.toNat - 'a'.toNat + 10)
  else if 'A' ≤ c && c ≤ 'F' then some (c.toNat - 'A'.toNat + 10)
  else none

/-! ## The cutter -/

/-- Where the cutter stands. -/
inductive Mode where
  | between
  /-- Inside a word, with the characters still due and the token it makes. -/
  | word (due : List Char) (token : Token)
  | figure (f : Figure)
  | quote (q : Quote)
  | escape (q : Quote)
  /-- Inside a `\u` escape, with the number of hex digits still due after this one. -/
  | unit (q : Quote) (due : Nat) (value : Nat)
  deriving Repr

namespace Mode

/-- The blanks allowed between tokens. -/
def isGap (c : Char) : Bool := c = ' ' || c = '\n' || c = '\t' || c = '\r'

/-- The tokens completed by a character met between tokens, and the mode after it. -/
def start (c : Char) : Option (List Token × Mode) :=
  if isGap c then some ([], .between)
  else if c = '{' then some ([.openBrace], .between)
  else if c = '}' then some ([.closeBrace], .between)
  else if c = '[' then some ([.openBracket], .between)
  else if c = ']' then some ([.closeBracket], .between)
  else if c = ':' then some ([.colon], .between)
  else if c = ',' then some ([.comma], .between)
  else if c = '"' then some ([], .quote .start)
  else if c = 'n' then some ([], .word ['u', 'l', 'l'] .null)
  else if c = 't' then some ([], .word ['r', 'u', 'e'] (.bool true))
  else if c = 'f' then some ([], .word ['a', 'l', 's', 'e'] (.bool false))
  else if c = '-' then some ([], .figure .minus)
  else if c = '0' then some ([], .figure (.zero false))
  else if c.isDigit then some ([], .figure (.whole false [c]))
  else none

/-- The tokens completed by the next character, and the mode after it. -/
def step (m : Mode) (c : Char) : Option (List Token × Mode) :=
  match m with
  | .between => start c
  | .word [] _ => none
  | .word [d] t => if c = d then some ([t], .between) else none
  | .word (d :: e :: due) t => if c = d then some ([], .word (e :: due) t) else none
  | .figure f =>
    match f.next c with
    | some f' => some ([], .figure f')
    | none =>
      match f.finish, start c with
      | some n, some (ts, m') => some (.number n :: ts, m')
      | _, _ => none
  | .quote q =>
    if c = '"' then some ([.string q.text], .between)
    else if c = '\\' then some ([], .escape q)
    else if c.toNat < 0x20 then none
    else some ([], .quote (q.push c))
  | .escape q =>
    if c = 'u' then some ([], .unit q 3 0)
    else match escaped c with
      | some d => some ([], .quote (q.push d))
      | none => none
  | .unit q due v =>
    match hexValue c with
    | none => none
    | some d =>
      match due with
      | 0 => some ([], .quote (q.pushUnit (v * 16 + d)))
      | due + 1 => some ([], .unit q due (v * 16 + d))

/-- The tokens completed by the end of the text. -/
def finish : Mode → Option (List Token)
  | .between => some []
  | .figure f => f.finish.map fun n => [.number n]
  | _ => none

end Mode

namespace Token

/-- The tokens of a text read from a mode, after those in `out` (last first). -/
def cutFrom (m : Mode) (out : List Token) : List Char → Option (List Token)
  | [] => m.finish.map fun ts => out.reverse ++ ts
  | c :: cs =>
    match m.step c with
    | none => none
    | some (ts, m') => cutFrom m' (ts.reverse ++ out) cs

/-- The tokens of a text, `none` when some part of it is no token. -/
def cut (cs : List Char) : Option (List Token) := cutFrom .between [] cs

end Token

end Rollbook.Json
