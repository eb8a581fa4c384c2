import Rollbook.Text.Cut
import Rollbook.Text.Utf8
/-
  Rollbook.Text.Percent — percent escapes, and the parameters of a query.

  A percent sign and two hex digits stand for a byte; any other percent sign
  stands for itself. A query is a list of parameters separated by ampersands, each
  a name and a value around the first equals sign; in both a plus sign stands for a
  space. Empty parameters are left out.
-/

namespace Rollbook.Text

/-! ## Bytes -/

/-- The byte of an ASCII character. -/
def asciiByte (c : Char) : UInt8 := UInt8.ofNat c.toNat

def hexValue? (b : UInt8) : Option Nat :=
  let n := b.toNat
  if 48 ≤ n ∧ n ≤ 57 then some (n - 48)
  else if 65 ≤ n ∧ n ≤ 70 then some (n - 55)
  else if 97 ≤ n ∧ n ≤ 102 then some (n - 87)
  else none

/-- A byte and whether it was written as an escape. -/
structure Octet where
  byte : UInt8
  escaped : Bool
  deriving DecidableEq, Repr

/-- The bytes that are written, each escape as one. -/
def octets : List UInt8 → List Octet
  | 37 :: a :: b :: rest =>
    match hexValue? a, hexValue? b with
    | some x, some y => ⟨UInt8.ofNat (x * 16 + y), true⟩ :: octets rest
    | _, _ => ⟨37, false⟩ :: octets (a :: b :: rest)
  | c :: rest => ⟨c, false⟩ :: octets rest
  | [] => []

/-- The bytes with every escape replaced by the byte it stands for. -/
def percentDecode (bytes : List UInt8) : List UInt8 := (octets bytes).map (·.byte)

/-- A byte as an escape with capital digits. -/
def escapeByte (b : UInt8) : List UInt8 :=
  let digit (n : Nat) : UInt8 := UInt8.ofNat (if n < 10 then n + 48 else n + 55)
  [37, digit (b.toNat / 16), digit (b.toNat % 16)]

def isAlphanumericByte (b : UInt8) : Bool := (Char.ofNat b.toNat).isAlphanum

/-- The bytes with everything escaped but ASCII letters and digits. -/
def percentEncode (bytes : List UInt8) : List UInt8 :=
  bytes.flatMap fun b => if isAlphanumericByte b then [b] else escapeByte b

/-! ## Queries -/

/-- A name or value of a query as the text it stands for. -/
def formDecode (cs : List Char) : String :=
  String.ofList
    (Utf8.decodeLossy (percentDecode (Utf8.encode (cs.map fun c => if c = '+' then ' ' else c))))

/-- A text as a name or value of a query. -/
def formEncode (s : String) : List UInt8 :=
  (Utf8.encode s.toList).flatMap fun b =>
    if isAlphanumericByte b || b ∈ ['*', '-', '.', '_'].map asciiByte then [b]
    else if b = asciiByte ' ' then [asciiByte '+']
    else escapeByte b

/-- The parameters of a query in order. -/
def queryParameters (cs : List Char) : List (String × String) :=
  ((splitAt '&' cs).filter fun part => !part.isEmpty).map fun part =>
    let (name, value) := cutAt '=' part
    (formDecode name, formDecode (value.getD []))

end Rollbook.Text
