import Rollbook.Text.Digits
import Rollbook.Text.Percent
/-
  Rollbook.Locator.Address — the part of a locator between two slashes and the
  path.

  An address is a user before the last at sign, a host, and the number of a service
  after a colon, all of which may be missing; a user or a number needs a host. A
  host is an internet address of eight groups in brackets, or any characters except
  blanks, brackets and the marks that have a meaning in locators. The number of a
  service is below 65536 and may be left empty.
-/

namespace Rollbook.Locator

open Rollbook.Text

/-! ## Numbered hosts -/

/-- A number from 0 to 255 without leading zeros. -/
def isOctet (cs : List Char) : Bool :=
  !cs.isEmpty && cs.all Char.isDigit && (cs.length = 1 || cs.head? ≠ some '0') && value cs ≤ 255

/-- Four numbers with points between them. -/
def isDotted (cs : List Char) : Bool :=
  let parts := splitAt '.' cs
  parts.length = 4 && parts.all isOctet

/-- One to four hex digits. -/
def isGroup (cs : List Char) : Bool :=
  let isHex (c : Char) := c.isDigit || ('a' ≤ c.toLower && c.toLower ≤ 'f')
  1 ≤ cs.length && cs.length ≤ 4 && cs.all isHex

/-- How many groups a run of groups between colons stands for. Only the last of the host may be
    written with points, and then stands for two. -/
def groupCount? (ends : Bool) : List (List Char) → Option Nat
  | [] => some 0
  | [g] => if isGroup g then some 1 else if ends && isDotted g then some 2 else none
  | g :: gs => if isGroup g then (groupCount? ends gs).map (· + 1) else none

/-- The text before the first double colon and the text after it, if there is one. -/
def cutAtGap : List Char → List Char × Option (List Char)
  | ':' :: ':' :: rest => ([], some rest)
  | c :: cs =>
    let (before, after) := cutAtGap cs
    (c :: before, after)
  | [] => ([], none)

def groupsOf (cs : List Char) : List (List Char) := if cs.isEmpty then [] else splitAt ':' cs

/-- Eight groups, or fewer with one gap. -/
def isNumberedHost (cs : List Char) : Bool :=
  match cutAtGap cs with
  | (_, none) => groupCount? true (groupsOf cs) == some 8
  | (before, some after) =>
    match groupCount? false (groupsOf before), groupCount? true (groupsOf after) with
    | some m, some n => m + n ≤ 7
    | _, _ => false

/-! ## Hosts and services -/

/-- The characters that no named host has. -/
def isMark (c : Char) : Bool :=
  c ∈ ['\x00', '\t', '\n', '\r', ' ', '#', '/', ':', '<', '>', '?', '@', '[', '\\', ']', '^', '|']

def isHost (cs : List Char) : Bool :=
  match cs with
  | '[' :: rest => rest.getLast? == some ']' && isNumberedHost rest.dropLast
  | _ => !cs.any isMark

/-- The host and what follows it, which starts at the first colon outside of brackets. -/
def takeHost (bracket : Bool) : List Char → List Char × List Char
  | [] => ([], [])
  | c :: cs =>
    if c = ':' && !bracket then ([], c :: cs)
    else
      let (host, rest) := takeHost (if c = '[' then true else if c = ']' then false else bracket) cs
      (c :: host, rest)

/-- What follows a host: nothing, or a colon and a number, which a backslash may end. -/
def isService : List Char → Bool
  | [] => true
  | _ :: cs =>
    let rest := cs.dropWhile Char.isDigit
    value (cs.takeWhile Char.isDigit) ≤ 65535 && (rest.isEmpty || rest.head? == some '\\')

/-- The text before the last at sign, if there is one, and the text after it. -/
def cutUser (cs : List Char) : Option (List Char) × List Char :=
  let host := (cs.reverse.takeWhile (· ≠ '@')).reverse
  if host.length = cs.length then (none, cs) else (some (cs.take (cs.length - host.length - 1)), host)

/-- An address that something follows or, with `last`, that ends the locator. -/
def isAddress (last : Bool) (cs : List Char) : Bool :=
  let (user, rest) := cutUser cs
  let (host, service) := takeHost false rest
  let named := match user with
    | none => false
    | some u => u ≠ [] && u ≠ [':']
  if user = some [] && rest.isEmpty && !last then false
  else if host.isEmpty && (named || !service.isEmpty) then false
  else isHost host && isService service

end Rollbook.Locator
