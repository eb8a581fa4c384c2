import Rollbook.Instant
import Rollbook.Text.Blank
import Rollbook.Text.Digits
/-
  Rollbook.Instant.Written — the text of an instant.

  An instant is written as `YYYY-MM-DDTHH:MM:SS`, then the shortest exact
  fraction of none, 3, 6 or 9 digits, then the zone: `Z` in events and answers,
  `+00:00` in a table. A year outside 0 to 9999 has a sign and at least four
  digits.

  Reading is wider than writing. Blanks may stand around the text, before every
  number, hyphen and colon and before the zone; month, day, hour, minute and
  second may have one digit; a year without a sign has at most four; `t` or a
  space stand for `T`; a fraction may have any number of digits, of which nine
  count; and the zone may be `Z`, `UTC` or an offset of less than a day, by which
  the time is moved to UTC. A time that leaves the calendar on the way has no
  instant.
-/

namespace Rollbook.Instant

open Rollbook.Text

/-! ## Writing -/

def writeYear (year : Int) : List Char :=
  if 0 ≤ year ∧ year ≤ 9999 then padded 4 year.toNat
  else (if year < 0 then '-' else '+') :: padded 4 year.natAbs

def writeFraction (nano : Nat) : List Char :=
  if nano = 0 then []
  else if nano % 1000000 = 0 then '.' :: padded 3 (nano / 1000000)
  else if nano % 1000 = 0 then '.' :: padded 6 (nano / 1000)
  else '.' :: padded 9 nano

/-- The text of an instant before its zone. -/
def writeLocal (t : Instant) : List Char :=
  writeYear t.year ++ '-' :: padded 2 t.month ++ '-' :: padded 2 t.day ++
    'T' :: padded 2 t.hour ++ ':' :: padded 2 t.minute ++ ':' :: padded 2 t.second ++
    writeFraction t.nano

/-- The text in events and answers. -/
def written (t : Instant) : String := String.ofList (t.writeLocal ++ ['Z'])

/-- The text in a column of a table. -/
def stored (t : Instant) : String := String.ofList (t.writeLocal ++ "+00:00".toList)

/-! ## Reading -/

/-- The character `c` after blanks. -/
def readMark (c : Char) (cs : List Char) : Option (List Char) :=
  match dropBlanks cs with
  | d :: rest => if d = c then some rest else none
  | [] => none

/-- A number of at most two digits after blanks. -/
def readPair (cs : List Char) : Option (Nat × List Char) := takeNumber 2 (dropBlanks cs)

/-- A year after blanks: with a sign any number of digits, without one at most four. -/
def readYear (cs : List Char) : Option (Int × List Char) :=
  match dropBlanks cs with
  | '-' :: rest => (takeNumber rest.length rest).map fun r => (-(r.1 : Int), r.2)
  | '+' :: rest => (takeNumber rest.length rest).map fun r => ((r.1 : Int), r.2)
  | rest => (takeNumber 4 rest).map fun r => ((r.1 : Int), r.2)

/-- The nanoseconds of a fraction; without a point there are none. -/
def readFraction (cs : List Char) : Option (Nat × List Char) :=
  match cs with
  | '.' :: rest =>
    match takeNumber 9 rest with
    | none => none
    | some (n, after) =>
      let used := rest.length - after.length
      some (n * Nat.pow 10 (9 - used), after.dropWhile Char.isDigit)
  | _ => some (0, cs)

/-- Two digits, neither more nor fewer. -/
def readTwoDigits (cs : List Char) : Option (Nat × List Char) :=
  match cs with
  | a :: b :: rest => if a.isDigit && b.isDigit then some (value [a, b], rest) else none
  | _ => none

/-- The minutes after a sign: two digits of hours, colons or blanks, two digits of minutes. -/
def readOffset (cs : List Char) : Option (Int × List Char) := do
  let (hours, cs) ← readTwoDigits cs
  let (minutes, cs) ← readTwoDigits (cs.dropWhile fun c => c == ':' || isBlank c)
  if hours < 24 ∧ minutes < 60 then some (hours * 60 + minutes, cs) else none

/-- The zone, as the minutes it is ahead of UTC. -/
def readZone (cs : List Char) : Option (Int × List Char) :=
  if (cs.take 3).map Char.toUpper = ['U', 'T', 'C'] then some (0, cs.drop 3)
  else match cs with
    | 'Z' :: rest | 'z' :: rest => some (0, rest)
    | '+' :: rest => readOffset rest
    | '-' :: rest | '\u2212' :: rest => (readOffset rest).map fun r => (-r.1, r.2)
    | _ => none

/-- The instant a text names. -/
def read? (cs : List Char) : Option Instant := do
  let (year, cs) ← readYear cs
  let cs ← readMark '-' cs
  let (month, cs) ← readPair cs
  let cs ← readMark '-' cs
  let (day, cs) ← readPair cs
  let cs ← match cs with
    | 'T' :: rest | 't' :: rest | ' ' :: rest => some rest
    | _ => none
  let (hour, cs) ← readPair cs
  let cs ← readMark ':' cs
  let (minute, cs) ← readPair cs
  let cs ← readMark ':' cs
  let (second, cs) ← readPair cs
  let (nano, cs) ← readFraction cs
  let (ahead, cs) ← readZone (dropBlanks cs)
  if dropBlanks cs ≠ [] then none
  else
    let clock ← ofCivil? ⟨year, month, day, hour, minute, second, nano⟩
    if ahead = 0 then some clock
    else ofCivil? (Civil.ofMinuteNumber (clock.minuteNumber - ahead) second nano)

def ofString? (s : String) : Option Instant := read? s.toList

end Rollbook.Instant
