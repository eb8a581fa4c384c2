import Rollbook.Event
import Rollbook.Json
import Rollbook.Instant.Written
/-
  Rollbook.Event.Payload — the JSON form of events.

  An event is written as an object of two members, `type` and `data`, and its
  data as an object of the event's fields in a fixed order.

  Reading takes the members of every object in any order and ignores names it
  does not know. A known name must occur exactly once. An event may also be the
  array of its type and its data, a grant the array of its two fields; the data
  of an event is always an object. A word may also be written as an object whose
  only member has the word as its name and `null` as its value, except for the
  type in an array.

  What is ignored is hardly looked at, with one exception. When `data` stands
  before `type` its fields cannot be told apart yet, so the whole value is held
  until the type is known. A held value must not be nested deeper than
  `deepestHeld`, its literals must all have a text and its numerals be finite
  doubles; and in a word that is written as an object an empty object does for
  `null`.
-/

namespace Rollbook

namespace Payload

/-- Whether a value is read where it stands or was held until the type of its event was known. -/
inductive Route where
  | inPlace
  | held
  deriving DecidableEq, Repr

abbrev Members := List (Option String × Json)

/-! ## Fields -/

/-- Stands for "nothing" beside a word that is written as a member name. -/
def isUnit : Route → Json → Bool
  | _, .null => true
  | .held, .object [] => true
  | _, _ => false

/-- The word written by a value. -/
def readWord? (route : Route) : Json → Option String
  | .string s => s
  | .object [(name, v)] => if isUnit route v then name else none
  | _ => none

def readLabel? {α : Type} [Labelled α] (route : Route) (v : Json) : Option α :=
  (readWord? route v).bind Labelled.ofExactLabel?

def readText? : Json → Option String
  | .string s => s
  | _ => none

def readInt? : Json → Option Int
  | .number n => n.toInt?
  | _ => none

def readId? (v : Json) : Option Int64 :=
  (readInt? v).bind fun i =>
    if Int64.minValue.toInt ≤ i ∧ i ≤ Int64.maxValue.toInt then some (Int64.ofInt i) else none

def readRank? (v : Json) : Option UInt8 :=
  (readInt? v).bind fun i => if 0 ≤ i ∧ i < 256 then some (UInt8.ofNat i.toNat) else none

def readInstant? (v : Json) : Option Instant := (readText? v).bind Instant.ofString?

/-- The members of an object all of whose names are texts. -/
def membersOf? : Json → Option Members
  | .object ms => if Json.keysSound ms then some ms else none
  | _ => none

/-- Reads the only member of a name. -/
def field? {α : Type} (name : String) (read : Json → Option α) (ms : Members) : Option α :=
  (Json.only? name ms).bind read

def readGrant? (route : Route) (v : Json) : Option Grant :=
  match v with
  | .array [tier, rank] => do
    let tier ← readLabel? route tier
    let rank ← readRank? rank
    some ⟨tier, rank⟩
  | _ => do
    let ms ← membersOf? v
    let tier ← field? "tier" (readLabel? route) ms
    let rank ← field? "rank" readRank? ms
    some ⟨tier, rank⟩

end Payload

namespace Event

/-! ## Writing -/

def labelJson {α : Type} [Labelled α] (a : α) : Json := .text (Labelled.label a)

def instantJson (t : Instant) : Json := .text t.written

def idJson (i : Int64) : Json := .ofInt i.toInt

end Event

def Grant.toJson (g : Grant) : Json :=
  .record [("tier", Event.labelJson g.tier), ("rank", .ofNat g.rank.toNat)]

namespace Event

/-- The name under which an event is written. -/
def typeName : Event → String
  | .checkedIn .. => "CheckedIn"
  | .checkedOut .. => "CheckedOut"
  | .requested .. => "CorrectionRequested"
  | .corrected .. => "StatusCorrected"
  | .rejected .. => "CorrectionRejected"

/-- The fields of an event in the order in which they are written. -/
def fields : Event → List (String × Json)
  | .checkedIn t | .checkedOut t => [("at", instantJson t)]
  | .requested r =>
    [("at", instantJson r.time), ("current_status", labelJson r.current),
     ("requested_status", labelJson r.wanted), ("reason", .text r.reason),
     ("requested_by", idJson r.requester), ("grant", r.grant.toJson)]
  | .corrected t previous new reason reviewer =>
    [("at", instantJson t), ("previous_status", labelJson previous), ("new_status", labelJson new),
     ("reason", .text reason), ("corrected_by", idJson reviewer)]
  | .rejected t reason reviewer =>
    [("at", instantJson t), ("rejection_reason", .text reason), ("rejected_by", idJson reviewer)]

def toJson (e : Event) : Json :=
  .record [("type", .text e.typeName), ("data", .record e.fields)]

/-- The compact text of an event. -/
def payload (e : Event) : String := e.toJson.compact

/-! ## Reading -/

open Payload

/-- Reads the data of an event of the given type. -/
def ofFields? (route : Route) (type : String) (ms : Members) : Option Event :=
  match type with
  | "CheckedIn" => (field? "at" readInstant? ms).map .checkedIn
  | "CheckedOut" => (field? "at" readInstant? ms).map .checkedOut
  | "CorrectionRequested" => do
    let time ← field? "at" readInstant? ms
    let current ← field? "current_status" (readLabel? route) ms
    let wanted ← field? "requested_status" (readLabel? route) ms
    let reason ← field? "reason" readText? ms
    let requester ← field? "requested_by" readId? ms
    let grant ← field? "grant" (readGrant? route) ms
    some (.requested ⟨time, current, wanted, reason, requester, grant⟩)
  | "StatusCorrected" => do
    let time ← field? "at" readInstant? ms
    let previous ← field? "previous_status" (readLabel? route) ms
    let new ← field? "new_status" (readLabel? route) ms
    let reason ← field? "reason" readText? ms
    let reviewer ← field? "corrected_by" readId? ms
    some (.corrected time previous new reason reviewer)
  | "CorrectionRejected" => do
    let time ← field? "at" readInstant? ms
    let reason ← field? "rejection_reason" readText? ms
    let reviewer ← field? "rejected_by" readId? ms
    some (.rejected time reason reviewer)
  | _ => none

/-- Reads a type and the data that belongs to it. -/
def ofParts? (route : Route) (type : Option String) (data : Json) : Option Event := do
  let type ← type
  let ms ← membersOf? data
  ofFields? route type ms

/-- How many brackets deep a held value may go. -/
def deepestHeld : Nat := 126

def holdable (data : Json) : Bool := data.depth ≤ deepestHeld && data.sound

/-- The data is met before the type. -/
def dataFirst (ms : Members) : Bool :=
  (ms.filterMap (·.1)).find? (fun name => name == "type" || name == "data") == some "data"

def ofJson? : Json → Option Event
  | .array [type, data] => ofParts? .inPlace (readText? type) data
  | .object ms => do
    if !Json.keysSound ms then none
    let type := readWord? .inPlace (← Json.only? "type" ms)
    let data ← Json.only? "data" ms
    if dataFirst ms then
      if holdable data then ofParts? .held type data else none
    else ofParts? .inPlace type data
  | _ => none

/-- Reads the text of exactly one event. -/
def ofPayload? (s : String) : Option Event := (Json.ofString? s).bind ofJson?

end Event

end Rollbook
