import Rollbook.Event.Clocked
import Rollbook.Proofs.Instant
import Rollbook.Proofs.Json
/-
  Rollbook.Proofs.Payload — an event is read back from the text kept of it.

  Every field is read back from its own form (a word, a text, a number, an instant, a
  grant). The writer puts the type before the data and every name once, so an event is
  read in place and each field is found by its name.

  Many texts are read as one event, and one of them is what is written for it
  (`canonical?`): reading a text and writing the event again keeps the event, and doing
  it twice changes nothing more.

  Events are recorded at the times of a clock, of which there are more. Those that texts
  name are read back as they were (`Clocked.payload_canonical`); a leap second within a
  minute is read back as the second after it, which is written alike (`exists_misread`).
-/

namespace Rollbook

namespace Payload

open Event

/-! ## Fields -/

theorem readWord?_text (route : Route) (s : String) : readWord? route (.text s) = some s := rfl

theorem readText?_text (s : String) : readText? (.text s) = some s := rfl

theorem readLabel?_status (route : Route) (s : Status) : readLabel? route (labelJson s) = some s := by
  show (Labelled.ofExactLabel? (Labelled.label s) : Option Status) = some s
  cases s <;> decide

theorem readLabel?_tier (route : Route) (t : Tier) : readLabel? route (labelJson t) = some t := by
  show (Labelled.ofExactLabel? (Labelled.label t) : Option Tier) = some t
  cases t <;> decide

theorem toInt?_ofInt (i : Int) : (Json.Numeral.ofInt i).toInt? = some i := by
  unfold Json.Numeral.toInt? Json.Numeral.ofInt
  dsimp only
  by_cases h : i < 0
  · have habs : i.natAbs ≠ 0 := by omega
    rw [decide_eq_true h]
    simp only [if_neg habs]
    congr 1
    omega
  · rw [decide_eq_false h]
    simp only
    congr 1
    omega

theorem readInt?_ofInt (i : Int) : readInt? (.ofInt i) = some i := toInt?_ofInt i

theorem readId?_idJson (i : Int64) : readId? (idJson i) = some i := by
  unfold readId? idJson
  have hlow : Int64.minValue.toInt ≤ i.toInt := Int64.minValue_le_toInt i
  have hhigh : i.toInt ≤ Int64.maxValue.toInt := Int64.toInt_le i
  rw [readInt?_ofInt, Option.bind_some, if_pos ⟨hlow, hhigh⟩, Int64.ofInt_toInt]

theorem readRank?_ofNat (rank : UInt8) : readRank? (.ofNat rank.toNat) = some rank := by
  have hlt : (rank.toNat : Int) < 256 := Int.ofNat_lt.2 rank.toNat_lt
  have hpos : (0 : Int) ≤ rank.toNat := Int.natCast_nonneg _
  unfold readRank?
  show (readInt? (.ofInt rank.toNat)).bind _ = _
  rw [readInt?_ofInt, Option.bind_some, if_pos ⟨hpos, hlt⟩, Int.toNat_natCast, UInt8.ofNat_toNat]

theorem readInstant?_instantJson (t : Instant) : readInstant? (instantJson t) = some t := by
  show (readText? (.text t.written)).bind Instant.ofString? = some t
  rw [readText?_text, Option.bind_some, Instant.ofString?_written]

theorem readGrant?_toJson (route : Route) (g : Grant) : readGrant? route g.toJson = some g := by
  have htier := readLabel?_tier route g.tier
  have hrank := readRank?_ofNat g.rank
  simp [readGrant?, Grant.toJson, membersOf?, Json.record, Json.keysSound, field?, Json.only?, Json.valuesOf,
    htier, hrank]

end Payload

namespace Event

open Payload

/-! ## Events -/

theorem digital_toJson (e : Event) : e.toJson.Digital := by
  cases e <;>
    simp [toJson, fields, Grant.toJson, Json.record, Json.Digital, Json.DigitalMembers, labelJson, instantJson,
      idJson, Json.text, Json.ofInt, Json.ofNat, Json.Numeral.ofInt, Json.Numeral.Digital]

/-- The data of an event is read back under the name of its type. -/
theorem ofFields?_fields (route : Route) (e : Event) :
    ofFields? route e.typeName (e.fields.map fun m => (some m.1, m.2)) = some e := by
  cases e <;>
    simp [ofFields?, typeName, fields, field?, Json.only?, Json.valuesOf, readInstant?_instantJson,
      readLabel?_status, readText?_text, readId?_idJson, readGrant?_toJson]

theorem ofParts?_fields (route : Route) (e : Event) :
    ofParts? route (some e.typeName) (.record e.fields) = some e := by
  have hsound : Json.keysSound (e.fields.map fun m => (some m.1, m.2)) = true := by
    simp [Json.keysSound]
  have hmembers : membersOf? (.record e.fields) = some (e.fields.map fun m => (some m.1, m.2)) := if_pos hsound
  simp only [ofParts?, hmembers, Option.bind_eq_bind, Option.bind_some, ofFields?_fields]

theorem ofJson?_toJson (e : Event) : ofJson? e.toJson = some e := by
  have hparts := ofParts?_fields .inPlace e
  have hword := readWord?_text .inPlace e.typeName
  refine Eq.trans ?_ hparts
  simp [toJson, Json.record, ofJson?, Json.keysSound, Json.only?, Json.valuesOf, dataFirst, hword]

/-- Every event is read back from its text. -/
theorem ofPayload?_payload (e : Event) : ofPayload? e.payload = some e := by
  unfold ofPayload? payload
  rw [Json.ofString?_compact (digital_toJson e), Option.bind_some, ofJson?_toJson]

/-! ## One text for each event -/

/-- What is written for the event that a text is read as. -/
def canonical? (s : String) : Option String := (ofPayload? s).map payload

theorem payload_injective : Function.Injective payload := by
  intro e e' h
  have hread := congrArg ofPayload? h
  rw [ofPayload?_payload, ofPayload?_payload] at hread
  exact Option.some.inj hread

theorem canonical?_of_read {s : String} {e : Event} (h : ofPayload? s = some e) : canonical? s = some e.payload := by
  unfold canonical?
  rw [h, Option.map_some]

/-- In the middle of the leap second at the end of 2016. -/
def leapSecond : Instant := ⟨⟨2016, 12, 31, 23, 59, 60, 500000000⟩, by decide⟩

/-! ## Times of a clock -/

namespace Clocked

theorem ofPayload?_payload (e : Clocked) : ofPayload? e.payload = some (ofEvent e.event) := by
  unfold ofPayload? payload
  rw [Event.ofPayload?_payload, Option.map_some]

/-- The time is lost exactly if no text names it. -/
theorem ofEvent_event_iff (e : Clocked) : ofEvent e.event = e ↔ e.time.Named := by
  rw [← ClockTime.clockTime_shown_iff, e.shown]
  constructor
  · exact congrArg time
  · intro h
    cases e
    unfold ofEvent
    simp only at h ⊢
    simp only [h]

theorem payload_eq_iff (e e' : Clocked) : e.payload = e'.payload ↔ e.event = e'.event :=
  ⟨fun h => payload_injective h, congrArg Event.payload⟩

theorem eq_of_payload {e e' : Clocked} (hn : e.time.Named) (hn' : e'.time.Named) (h : e.payload = e'.payload) :
    e = e' := by
  rw [← (ofEvent_event_iff e).2 hn, ← (ofEvent_event_iff e').2 hn', (payload_eq_iff e e').1 h]

/-- Whatever is read has a time that texts name. -/
theorem of_read {s : String} {e : Clocked} (h : ofPayload? s = some e) :
    e.time.Named ∧ Event.ofPayload? s = some e.event := by
  obtain ⟨read, hread, rfl⟩ := Option.map_eq_some_iff.1 h
  exact ⟨ClockTime.named_clockTime read.time, hread⟩

/-- An event is read from its text with the instant that is shown. So reading undoes writing exactly for the times
    that texts name, and no two events at such times are written alike. Whatever text an event was read from, its
    time is one of these, and what is written for it is read as the same event and written again as it stands. -/
theorem payload_canonical :
    (∀ e : Clocked, ofPayload? e.payload = some (ofEvent e.event) ∧ (ofPayload? e.payload = some e ↔ e.time.Named)) ∧
      (∀ e e' : Clocked, e.time.Named → e'.time.Named → e.payload = e'.payload → e = e') ∧
      ∀ (s : String) (e : Clocked), ofPayload? s = some e → e.time.Named ∧
        canonical? s = some e.payload ∧ ofPayload? e.payload = some e ∧ canonical? e.payload = some e.payload := by
  refine ⟨fun e => ⟨ofPayload?_payload e, ?_⟩, fun e e' hn hn' h => eq_of_payload hn hn' h, fun s e h => ?_⟩
  · rw [ofPayload?_payload, Option.some_inj]
    exact ofEvent_event_iff e
  · obtain ⟨hn, hread⟩ := of_read h
    refine ⟨hn, canonical?_of_read hread, ?_, canonical?_of_read (Event.ofPayload?_payload e.event)⟩
    rw [ofPayload?_payload, (ofEvent_event_iff e).2 hn]

/-- A check-out in a leap second, its data before its type. -/
def swapped : Json := .record [("data", .record [("at", instantJson leapSecond)]), ("type", .text "CheckedOut")]

/-- A text that is not the one written for its event. -/
theorem payload_canonical_swapped : ∃ (s : String) (e : Clocked), ofPayload? s = some e ∧ s ≠ e.payload ∧
    e.time.nano = 1500000000 ∧ e.time.Named ∧ canonical? s = some e.payload ∧ canonical? e.payload = some e.payload := by
  have hdigital : swapped.Digital := by
    simp [swapped, Json.record, Json.Digital, Json.DigitalMembers, instantJson, Json.text]
  have hjson := Json.ofString?_compact hdigital
  have htime := readInstant?_instantJson leapSecond
  have hread : Event.ofPayload? swapped.compact = some (.checkedOut leapSecond) := by
    unfold Event.ofPayload?
    rw [hjson, Option.bind_some]
    simp [swapped, Json.record, ofJson?, Json.keysSound, Json.only?, Json.valuesOf, dataFirst, readWord?, Json.text,
      holdable, Json.depth, Json.depthMembers, Json.sound, Json.soundMembers, deepestHeld, instantJson, ofParts?,
      membersOf?, ofFields?, field?]
    exact htime
  have hclocked : ofPayload? swapped.compact = some (ofEvent (.checkedOut leapSecond)) := by
    unfold ofPayload?
    rw [hread, Option.map_some]
  obtain ⟨-, -, hall⟩ := payload_canonical
  obtain ⟨hnamed, hcanonical, -, hagain⟩ := hall _ _ hclocked
  refine ⟨_, _, hclocked, fun he => ?_, rfl, hnamed, hcanonical, hagain⟩
  unfold payload at he
  rw [he, Event.payload, Json.ofString?_compact (digital_toJson _)] at hjson
  simp [swapped, toJson, Json.record, ofEvent] at hjson

/-- Four seconds after nine, and a third of a second into a leap second. -/
def unannounced : ClockTime := ⟨⟨2025, 3, 1, 9, 0, 4, 1333333333⟩, by decide, by decide, by decide⟩

/-- A check-in at a time that no text names is written as one in the second after, and read as that. -/
theorem exists_misread : ∃ e e' : Clocked, e.time = unannounced ∧ e'.time.nano = 333333333 ∧ e'.time.second = 5 ∧
    e.time.written = "2025-03-01T09:00:05.333333333Z" ∧ e ≠ e' ∧ e.payload = e'.payload ∧
    ofPayload? e.payload = some e' ∧ ofPayload? e'.payload = some e' := by
  let e : Clocked := ⟨.checkedIn unannounced.shown, unannounced, rfl⟩
  have hread := ofPayload?_payload e
  refine ⟨e, ofEvent e.event, rfl, rfl, rfl, by decide +kernel, ?_, rfl, hread, hread⟩
  intro h
  have htime := congrArg (fun e => e.time.nano) h
  exact absurd htime (by decide)

end Clocked

end Event

end Rollbook
