import Rollbook.Proofs.Loosened
import Rollbook.Proofs.Payload
/-
  Rollbook.Proofs.Tolerance — which other texts are read as an event.

  A stored text need not be the one that is written for its event. It may have blanks
  between its tokens, and its objects — that of the type and the data, the data, the
  grant — may have their members in any order and unknown ones among them
  (`tolerant`). What is known has to be there once: a text in which a member of one of
  these objects is missing or stands twice is not read at all.

  The reader has two routes. Data in front of the type is held until the type is known,
  and for that it must not be too deep and all of it must be readable. An event as it is
  written is two brackets deep, and what is added to it is plain, so it can always be
  held (`holdable_of_loosened`), and from there on the routes agree.
-/

namespace Rollbook

open Json (only? Proper Loosened Damaged)
open Payload (Route Members field?)

namespace Payload

section

variable {α : Type} {read : Json → Option α} {name : String} {v : Json} {ms all : Members}

/-- A member is read if every loosening of its value is. -/
theorem field?_loosened {a : α} (hfound : ∃ w, only? name all = some w ∧ Loosened v w)
    (hread : ∀ w, Loosened v w → read w = some a) : field? name read all = some a := by
  obtain ⟨w, hw, hloosened⟩ := hfound
  unfold field?
  rw [hw, Option.bind_some, hread w hloosened]

/-- A member is not read if no damaged value is. -/
theorem field?_damaged (hfound : ∀ w, only? name all = some w → Damaged v w)
    (hread : ∀ w, Damaged v w → read w = none) : field? name read all = none := by
  unfold field?
  cases hw : only? name all with
  | none => rfl
  | some w => rw [Option.bind_some, hread w (hfound w hw)]

end

/-! ## Grants -/

theorem membersOf?_object {all : Members} (h : Json.keysSound all = true) : membersOf? (.object all) = some all :=
  if_pos h

theorem proper_grant (g : Grant) :
    Proper ([("tier", Event.labelJson g.tier), ("rank", .ofNat g.rank.toNat)].map fun m => (some m.1, m.2)) :=
  Json.proper_record (by simp)

/-- An object is a grant only by its two fields. -/
theorem readGrant?_object (route : Route) (ms : Members) : readGrant? route (.object ms) =
    (membersOf? (.object ms)).bind fun ms => (field? "tier" (readLabel? route) ms).bind fun tier =>
      (field? "rank" readRank? ms).bind fun rank => some ⟨tier, rank⟩ := rfl

theorem readGrant?_loosened (route : Route) {g : Grant} {w : Json} (h : Loosened g.toJson w) :
    readGrant? route w = some g := by
  obtain ⟨all, rfl, hsound, hfound⟩ := Json.exists_members_of_loosened (proper_grant g) h
  have htier : field? "tier" (readLabel? route) all = some g.tier := by
    refine field?_loosened (hfound List.mem_cons_self) fun w hw => ?_
    rw [show w = _ from hw]
    exact readLabel?_tier route g.tier
  have hrank : field? "rank" readRank? all = some g.rank := by
    refine field?_loosened (hfound (List.mem_cons_of_mem _ List.mem_cons_self)) fun w hw => ?_
    rw [show w = _ from hw]
    exact readRank?_ofNat g.rank
  rw [readGrant?_object, membersOf?_object hsound, Option.bind_some, htier, Option.bind_some, hrank]
  rfl

theorem readGrant?_damaged (route : Route) {g : Grant} {w : Json} (h : Damaged g.toJson w) :
    readGrant? route w = none := by
  obtain ⟨all, rfl, name, v, hv, hfound⟩ := Json.exists_members_of_damaged (proper_grant g) h
  have hmissing : field? "tier" (readLabel? (α := Tier) route) all = none ∨ field? "rank" readRank? all = none := by
    rcases List.mem_cons.1 hv with he | hv
    · cases he
      exact Or.inl (field?_damaged hfound fun w hw => hw.elim)
    · cases List.mem_singleton.1 hv
      exact Or.inr (field?_damaged hfound fun w hw => hw.elim)
  rw [readGrant?_object]
  cases hmembers : membersOf? (.object all) with
  | none => rfl
  | some ms =>
    obtain ⟨-, he⟩ := Option.ite_none_right_eq_some.1 hmembers
    cases he
    rcases hmissing with h | h <;> simp [h]

end Payload

namespace Event

open Payload

/-! ## Data -/

/-- The members of the data of an event. -/
def members (e : Event) : Members := e.fields.map fun m => (some m.1, m.2)

theorem proper_members (e : Event) : Proper e.members := by
  refine Json.proper_record ?_
  cases e <;> simp [fields]

/-- Every field but a grant is a value that is not made of others. -/
theorem leaf_or_grant {e : Event} {name : String} {v : Json} (h : (some name, v) ∈ e.members) :
    (∀ w, ¬ Damaged v w) ∨ ∃ r, e = .requested r ∧ name = "grant" ∧ v = r.grant.toJson := by
  have hleaf : ∀ m ∈ e.fields, (∀ w, ¬ Damaged m.2 w) ∨ ∃ r, e = .requested r ∧ m = ("grant", r.grant.toJson) := by
    cases e <;> simp [fields, labelJson, instantJson, idJson, Json.text, Json.ofInt, Damaged]
  obtain ⟨m, hm, he⟩ := List.mem_map.1 h
  cases he
  rcases hleaf m hm with hleaf | ⟨r, rfl, rfl⟩
  · exact Or.inl hleaf
  · exact Or.inr ⟨r, rfl, rfl, rfl⟩

section

variable {all : Members}

/-- Fields that are found loosened under their names are read. -/
theorem ofFields?_loosened (route : Route) (e : Event)
    (hfound : ∀ {name : String} {v : Json}, (some name, v) ∈ e.members → ∃ w, only? name all = some w ∧ Loosened v w) :
    ofFields? route e.typeName all = some e := by
  -- every value but a grant is found as it was written
  have hinstant (t : Instant) (w : Json) : Loosened (instantJson t) w ↔ w = instantJson t := Iff.rfl
  have hstatus (s : Status) (w : Json) : Loosened (labelJson s) w ↔ w = labelJson s := Iff.rfl
  have htext (s : String) (w : Json) : Loosened (.text s) w ↔ w = .text s := Iff.rfl
  have hid (i : Int64) (w : Json) : Loosened (idJson i) w ↔ w = idJson i := Iff.rfl
  have hall : ∀ m ∈ e.fields, ∃ w, only? m.1 all = some w ∧ Loosened m.2 w :=
    fun m hm => hfound (List.mem_map_of_mem hm)
  cases e with
  | requested r =>
    simp [fields, hinstant, hstatus, htext, hid] at hall
    obtain ⟨htime, hcurrent, hwanted, hreason, hrequester, w, hgrant, hw⟩ := hall
    simp [ofFields?, typeName, field?, htime, hcurrent, hwanted, hreason, hrequester, hgrant, readInstant?_instantJson,
      readLabel?_status, readText?_text, readId?_idJson, readGrant?_loosened route hw]
  | _ =>
    simp [fields, hinstant, hstatus, htext, hid] at hall
    simp [ofFields?, typeName, field?, hall, readInstant?_instantJson, readLabel?_status, readText?_text,
      readId?_idJson]

/-- Without one of its fields an event is not read. -/
theorem ofFields?_missing (route : Route) {e : Event} {name : String} {v : Json} (hv : (some name, v) ∈ e.members)
    (hnone : only? name all = none) : ofFields? route e.typeName all = none := by
  have hname : name ∈ e.fields.map (·.1) := by
    obtain ⟨m, hm, he⟩ := List.mem_map.1 hv
    cases he
    exact List.mem_map_of_mem hm
  cases e with
  | checkedIn t | checkedOut t =>
    simp [fields] at hname
    subst hname
    simp [ofFields?, typeName, field?, hnone]
  | requested r =>
    simp [fields] at hname
    rcases hname with rfl | rfl | rfl | rfl | rfl | rfl <;> simp [ofFields?, typeName, field?, hnone]
  | corrected t previous new reason reviewer =>
    simp [fields] at hname
    rcases hname with rfl | rfl | rfl | rfl | rfl <;> simp [ofFields?, typeName, field?, hnone]
  | rejected t reason reviewer =>
    simp [fields] at hname
    rcases hname with rfl | rfl | rfl <;> simp [ofFields?, typeName, field?, hnone]

theorem ofFields?_damaged (route : Route) {e : Event} {name : String} {v : Json} (hv : (some name, v) ∈ e.members)
    (hfound : ∀ w, only? name all = some w → Damaged v w) : ofFields? route e.typeName all = none := by
  rcases leaf_or_grant hv with hleaf | ⟨r, rfl, rfl, rfl⟩
  · refine ofFields?_missing route hv ?_
    exact Option.eq_none_iff_forall_ne_some.2 fun w hw => hleaf w (hfound w hw)
  · have hgrant : field? "grant" (readGrant? route) all = none :=
      field?_damaged hfound fun w hw => readGrant?_damaged route hw
    simp [ofFields?, typeName, hgrant]

end

theorem ofParts?_loosened (route : Route) {e : Event} {data : Json} (h : Loosened (.record e.fields) data) :
    ofParts? route (some e.typeName) data = some e := by
  obtain ⟨all, rfl, hsound, hfound⟩ := Json.exists_members_of_loosened (proper_members e) h
  unfold ofParts?
  rw [membersOf?_object hsound]
  exact ofFields?_loosened route e hfound

theorem ofParts?_damaged (route : Route) {e : Event} {data : Json} (h : Damaged (.record e.fields) data) :
    ofParts? route (some e.typeName) data = none := by
  obtain ⟨all, rfl, name, v, hv, hfound⟩ := Json.exists_members_of_damaged (proper_members e) h
  unfold ofParts?
  cases hsound : Json.keysSound all with
  | false => simp [membersOf?, hsound]
  | true =>
    rw [membersOf?_object hsound]
    exact ofFields?_damaged route hv hfound

/-! ## Holding the data -/

theorem sound_fields (e : Event) : (Json.record e.fields).sound = true := by
  have hrank (g : Grant) : (Json.Numeral.ofInt g.rank.toNat).isFinite = true := by
    have hlt := g.rank.toNat_lt
    refine Json.isFinite_ofInt ?_
    unfold Json.Numeral.largestFigure
    omega
  cases e <;>
    simp [fields, Json.record, Json.sound, Json.soundMembers, instantJson, labelJson, idJson, Grant.toJson, Json.text,
      Json.ofInt, Json.ofNat, Json.isFinite_ofInt64, hrank]

theorem depth_fields (e : Event) : (Json.record e.fields).depth ≤ 2 := by
  cases e <;>
    simp [fields, Json.record, Json.depth, Json.depthMembers, instantJson, labelJson, idJson, Grant.toJson, Json.text,
      Json.ofInt, Json.ofNat]

/-- The data of an event can be held, whatever plain members are added to it. -/
theorem holdable_of_loosened {e : Event} {data : Json} (h : Loosened (.record e.fields) data) :
    holdable data = true := by
  have htame := Json.tame_of_loosened h
  have hdepth : data.depth ≤ deepestHeld :=
    Nat.le_trans htame.depth (Nat.le_trans (depth_fields e) (by decide))
  simp [holdable, hdepth, htame.sound (sound_fields e)]

/-! ## Events -/

/-- The members of an event. -/
def parts (e : Event) : Members :=
  [("type", .text e.typeName), ("data", .record e.fields)].map fun m => (some m.1, m.2)

theorem proper_parts (e : Event) : Proper e.parts := Json.proper_record (by simp)

theorem ofJson?_loosened {e : Event} {v : Json} (h : Loosened e.toJson v) : ofJson? v = some e := by
  obtain ⟨all, rfl, hsound, hfound⟩ := Json.exists_members_of_loosened (proper_parts e) h
  obtain ⟨type, htype, rfl⟩ := hfound List.mem_cons_self
  obtain ⟨data, hdata, hloosened⟩ := hfound (List.mem_cons_of_mem _ List.mem_cons_self)
  have hparts (route : Route) := ofParts?_loosened route hloosened
  have hholdable := holdable_of_loosened hloosened
  simp [ofJson?, hsound, htype, hdata, readWord?_text, hholdable, hparts]

theorem ofJson?_damaged {e : Event} {v : Json} (h : Damaged e.toJson v) : ofJson? v = none := by
  obtain ⟨all, rfl, ⟨name, hname, hnone⟩ | ⟨kept, hkept, hproper, hfound⟩⟩ :=
    Json.missing_or_damaged (proper_parts e) h
  · simp [parts] at hname
    rcases hname with rfl | rfl <;> simp [ofJson?, hnone]
  · obtain ⟨type, _, rfl, ⟨htype, -⟩ | ⟨rfl, data, _, rfl, ⟨hdamaged, hrest⟩ | ⟨-, hrest⟩⟩⟩ := hkept
    · exact htype.elim
    · have htype := (hfound List.mem_cons_self).trans (hproper.only?_of_mem List.mem_cons_self)
      have hdata := (hfound (List.mem_cons_of_mem _ List.mem_cons_self)).trans
        (hproper.only?_of_mem (List.mem_cons_of_mem _ List.mem_cons_self))
      have hparts (route : Route) := ofParts?_damaged route hdamaged
      simp [ofJson?, htype, hdata, readWord?_text, hparts]
    · exact hrest.elim

/-- The text of an event is read as the event whatever blanks stand between its tokens, in whatever order the
    members of its objects are, and whatever plain members unknown to these stand among them. With a member missing
    or standing twice in one of the objects it is not read. -/
theorem tolerant (e : Event) :
    (Json.Token.Spread e.toJson.tokens e.payload.toList ∧ Loosened e.toJson e.toJson) ∧
    (∀ v cs, Loosened e.toJson v → Json.Token.Spread v.tokens cs → ofPayload? (String.ofList cs) = some e) ∧
      ∀ v cs, Damaged e.toJson v → Json.Token.Spread v.tokens cs → ofPayload? (String.ofList cs) = none := by
  refine ⟨⟨?_, Json.loosened_self e.toJson⟩, fun v cs hv hcs => ?_, fun v cs hv hcs => ?_⟩
  · unfold payload Json.compact
    rw [String.toList_ofList]
    exact Json.spread_write e.toJson
  · unfold ofPayload?
    rw [Json.ofString?_of_spread ((Json.tame_of_loosened hv).digital (digital_toJson e)) hcs, Option.bind_some,
      ofJson?_loosened hv]
  · unfold ofPayload?
    rw [Json.ofString?_of_spread (Json.digital_of_damaged hv (digital_toJson e)) hcs, Option.bind_some,
      ofJson?_damaged hv]

/-- Members the other way round with one foreign to them at the end. -/
theorem among_reverse {ms kept : Members} {m : Option String × Json} (h : Json.Foreign ms m) :
    Json.Among ms kept (.object (kept.reverse ++ [m])) := by
  refine ⟨[m], _, rfl, fun m' hm' => ?_, (List.reverse_perm kept).append_right [m]⟩
  cases List.mem_singleton.1 hm'
  exact h

/-- A request filed in a leap second. -/
def filed : Request := ⟨leapSecond, .absent, .present, "train", 3, ⟨.course, 1⟩⟩

/-- Its grant, its data and the whole, the members of each the other way round and a stranger behind them. -/
def turnedGrant : Json :=
  .object [(some "rank", .ofNat 1), (some "tier", labelJson Tier.course), (some "at", .null)]

def turnedData : Json :=
  .object [(some "grant", turnedGrant), (some "requested_by", idJson 3), (some "reason", .text "train"),
    (some "requested_status", labelJson Status.present), (some "current_status", labelJson Status.absent),
    (some "at", instantJson leapSecond), (some "type", .text "CheckedIn")]

def turned : Json :=
  .object [(some "data", turnedData), (some "type", .text "CorrectionRequested"),
    (some "rank", .ofInt (-1 : Int64).toInt)]

/-- The turned request with a second rank in its grant. -/
def doubledGrant : Json :=
  .object [(some "rank", .ofNat 2), (some "tier", labelJson Tier.course), (some "rank", .ofNat 1)]

def doubledData : Json :=
  .object [(some "at", instantJson leapSecond), (some "current_status", labelJson Status.absent),
    (some "requested_status", labelJson Status.present), (some "reason", .text "train"),
    (some "requested_by", idJson 3), (some "grant", doubledGrant)]

def doubled : Json := .object [(some "type", .text "CorrectionRequested"), (some "data", doubledData)]

theorem loosened_turned : Loosened (Event.requested filed).toJson turned := by
  have hgrant : Loosened filed.grant.toJson turnedGrant :=
    ⟨_, ⟨_, _, rfl, rfl, _, _, rfl, rfl, rfl⟩, among_reverse ⟨⟨_, rfl⟩, by simp, .null⟩⟩
  have hforeign : Json.Foreign (Event.requested filed).members (some "type", .text "CheckedIn") :=
    ⟨⟨_, rfl⟩, by simp [members, fields], .text _⟩
  have hdata : Loosened (.record (Event.requested filed).fields) turnedData :=
    ⟨_, ⟨_, _, rfl, rfl, _, _, rfl, rfl, _, _, rfl, rfl, _, _, rfl, rfl, _, _, rfl, rfl, _, _, rfl, hgrant, rfl⟩,
      among_reverse hforeign⟩
  exact ⟨_, ⟨_, _, rfl, rfl, _, _, rfl, hdata, rfl⟩, among_reverse ⟨⟨_, rfl⟩, by simp, .integer _⟩⟩

theorem damaged_doubled : Damaged (Event.requested filed).toJson doubled := by
  have hmarred : Json.Marred [(some "tier", labelJson Tier.course), (some "rank", .ofNat 1)]
      [(some "rank", .ofNat 2), (some "tier", labelJson Tier.course), (some "rank", .ofNat 1)] := by
    refine .repeated ⟨_, List.mem_cons_of_mem _ List.mem_cons_self, rfl⟩ ?_
    intro t ht
    cases ht
  have hgrant : Damaged filed.grant.toJson doubledGrant :=
    ⟨_, Or.inl ⟨_, Json.loosenedMembers_self _, hmarred⟩, Json.among_self _ _⟩
  have hdata : Damaged (.record (Event.requested filed).fields) doubledData :=
    ⟨_, Or.inr ⟨_, _, rfl, Or.inr ⟨rfl, _, _, rfl, Or.inr ⟨rfl, _, _, rfl, Or.inr ⟨rfl, _, _, rfl, Or.inr ⟨rfl,
      _, _, rfl, Or.inr ⟨rfl, _, _, rfl, Or.inl ⟨hgrant, rfl⟩⟩⟩⟩⟩⟩⟩, Json.among_self _ _⟩
  exact ⟨_, Or.inr ⟨_, _, rfl, Or.inr ⟨rfl, _, _, rfl, Or.inl ⟨hdata, rfl⟩⟩⟩, Json.among_self _ _⟩

/-- A line for every token. -/
def lines (v : Json) : List Char := v.tokens.flatMap fun t => ['\n'] ++ t.write

theorem spread_lines (v : Json) : Json.Token.Spread v.tokens (lines v) := by
  refine Json.spread_flatMap (fun c hc => ?_) v.tokens
  cases List.mem_singleton.1 hc
  rfl

/-- The data in front of the type, members turned round, strangers among them and lines for blanks: the request is
    read. With a second rank it is not. -/
theorem tolerant_turned :
    Loosened (Event.requested filed).toJson turned ∧ Damaged (Event.requested filed).toJson doubled ∧
      ofPayload? (String.ofList (lines turned)) = some (.requested filed) ∧
      ofPayload? (String.ofList (lines doubled)) = none := by
  obtain ⟨-, hloosened, hdamaged⟩ := tolerant (.requested filed)
  exact ⟨loosened_turned, damaged_doubled, hloosened turned (lines turned) loosened_turned (spread_lines turned),
    hdamaged doubled (lines doubled) damaged_doubled (spread_lines doubled)⟩

end Event

end Rollbook
