import Rollbook.Text.Digits
/-
  Rollbook.Json.Numeral — the numbers of a JSON text, as they are written.

  A numeral keeps its sign, its whole part and, when there is one, the fraction
  and exponent after it. Nothing is rounded, so a reader can still tell `7` from
  `7.0` and `0` from `-0`: only a numeral without fraction and exponent is an
  integer, and `-0` is none.

  Whether a numeral is within the range of doubles is decided by the quick rule of
  readers that keep one machine word of digits: near the limit it can differ from
  what the exact value would give.
-/

namespace Rollbook.Json

/-- What follows the whole part: fraction digits and a power of ten. -/
structure Tail where
  fraction : List Char
  exponent : Int
  deriving DecidableEq, Repr

structure Numeral where
  negative : Bool
  whole : Nat
  tail : Option Tail
  deriving DecidableEq, Repr

namespace Numeral

def ofInt (i : Int) : Numeral := ⟨i < 0, i.natAbs, none⟩

/-- The integer a numeral stands for; `-0`, fractions and exponents have none. -/
def toInt? (n : Numeral) : Option Int :=
  match n.tail with
  | some _ => none
  | none =>
    match n.negative with
    | false => some n.whole
    | true => if n.whole = 0 then none else some (-(n.whole : Int))

/-! ## Size -/

/-- The largest figure that is kept of a numeral. -/
def largestFigure : Nat := 18446744073709551615

/-- The figure that digits make behind those of `kept`, and the digits from the first one on with
    which it would become too large. -/
def keepDigits (kept : Nat) : List Char → Nat × List Char
  | [] => (kept, [])
  | d :: ds =>
    let next := kept * 10 + Text.value [d]
    if next ≤ largestFigure then keepDigits next ds else (kept, d :: ds)

/-- The figure of a numeral and the power of ten it is to be multiplied by. Digits that the figure
    has no room for count as zeros. -/
def parts (n : Numeral) : Nat × Int :=
  let fraction := (n.tail.map (·.fraction)).getD []
  let exponent := (n.tail.map (·.exponent)).getD 0
  let (whole, lost) := keepDigits 0 (Text.digits n.whole)
  let (figure, dropped) := keepDigits whole fraction
  (figure, exponent + lost.length - (fraction.length - dropped.length : Nat))

/-- The nearest number that is a figure of 53 binary digits followed by zeros, of two the one whose
    figure is even. -/
def toDouble (n : Nat) : Nat :=
  let unit := Nat.pow 2 (n.log2 + 1 - 53)
  let figure := n / unit
  let rest := n % unit
  if unit < 2 * rest || (unit = 2 * rest && figure % 2 = 1) then (figure + 1) * unit
  else figure * unit

/-- The least number that rounds to no double: half a step above the largest one. -/
def doubleLimit : Nat := Nat.pow 2 1024 - Nat.pow 2 970

/-- The largest power of ten that is a double. -/
def largestPower : Nat := 308

/-- Whether the numeral has a double when its figure and its power of ten are each rounded to one
    and then their product is. -/
def isFinite (n : Numeral) : Bool :=
  let (figure, power) := n.parts
  if figure = 0 || power < 0 then true
  else if largestPower < power.toNat then false
  else toDouble figure * toDouble (Nat.pow 10 power.toNat) < doubleLimit

/-- The numeral as it is written: an exponent is given whenever there is a tail. -/
def write (n : Numeral) : List Char :=
  (if n.negative then ['-'] else []) ++ Text.digits n.whole ++
    match n.tail with
    | none => []
    | some t =>
      (if t.fraction.isEmpty then [] else '.' :: t.fraction) ++ 'e' :: Text.integer t.exponent

end Numeral

end Rollbook.Json
