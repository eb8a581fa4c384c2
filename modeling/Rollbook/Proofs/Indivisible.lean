import Rollbook.Proofs.Lasting
/-
  Rollbook.Proofs.Indivisible — an append is done as a whole or not at all.

  Tables may contain anything that their keys allow (`Tables.Constrained`): also logs
  whose rows were put in by someone else, in any place, of any kind and with any text.
  What a record says of the places of its events need not agree with them then. Its
  append secures the header first and may find a row in its way after that, in the
  middle of the rows that it adds.

  Whatever there is, an append that fails leaves everything as it was and has a reason
  (`Tables.Declined`); otherwise one header was inserted or raised, and exactly the new
  events stand behind all other rows, in the places that follow on those the record
  knows of (`Tables.Added`). `append_cases` goes through the append once, and
  `indivisible_of_constrained` says it of every record that can be come by.

  A log is read in the order of its places. It is read as a whole or not at all
  (`Tables.Legible`): a text in it may say nothing, and before any text is read a row may
  be in a place that is no 32-bit number. So legible texts alone are not enough, and an
  append that has nothing to add raises no version (`exists_strayed_of_moves`).
-/

namespace Rollbook

open Plan

namespace Tables

variable {t t' : Tables} {r : Record} {id : RecordId}

/-! ## What tables may contain -/

/-- Tables as their keys allow them: every reference points to a row, headers have numbers of their own up to the
    last one given, there is one for each session and member, and no two rows of a log are in one place. -/
structure Constrained (t : Tables) : Prop extends Linked t where
  numbered : (t.headers.map (·.id)).Nodup
  issued : ∀ h ∈ t.headers, h.id ≤ t.lastRecord
  apart : t.Apart
  placed : t.entries.Pairwise fun a b => (a.record, a.position) ≠ (b.record, b.position)

theorem record_le (h : t.Constrained) {e : Entry} (he : e ∈ t.entries) : e.record ≤ t.lastRecord := by
  obtain ⟨head, hh, hid⟩ := List.any_eq_true.1 (h.entries e he)
  rw [← of_decide_eq_true hid]
  exact h.issued head hh

/-- No row of the log is in a place of the record's new events. -/
def Free (t : Tables) (r : Record) (id : RecordId) : Prop :=
  ∀ e ∈ t.entries, e.record = id → ¬ ((r.persisted : Int) ≤ e.position ∧ e.position < r.persisted + r.uncommitted.length)

theorem insertEntry_taken {e : Entry} (h : (t.entries.any fun old => old.record = e.record ∧ old.position = e.position) = true) :
    t.insertEntry e = .error .positionTaken := if_pos h

theorem insertEntry_free {e : Entry} (h : ¬ (t.entries.any fun old => old.record = e.record ∧ old.position = e.position) = true)
    (hid : t.hasRecord e.record = true) : t.insertEntry e = .ok { t with entries := t.entries ++ [e] } := by
  unfold insertEntry
  rw [if_neg h, if_pos hid]

/-- A row in the way, be it in the middle, is met. -/
theorem foldlM_insertEntry_taken {t : Tables} (hid : t.hasRecord id = true) (first : Nat) (events : List Event)
    {old : Entry} (hold : old ∈ t.entries) (hrecord : old.record = id) (hfirst : (first : Int) ≤ old.position)
    (hlast : old.position < first + events.length) : (rows id first events).foldlM insertEntry t = .error .positionTaken := by
  induction events generalizing t first with
  | nil =>
    rw [List.length_nil] at hlast
    omega
  | cons e events ih =>
    rw [List.length_cons] at hlast
    rw [rows_cons, List.foldlM_cons]
    by_cases hplace : (t.entries.any fun old => old.record = id ∧ old.position = first) = true
    · rw [insertEntry_taken hplace]
      rfl
    · have hne : old.position ≠ first := fun heq =>
        hplace (List.any_eq_true.2 ⟨old, hold, decide_eq_true ⟨hrecord, heq⟩⟩)
      rw [insertEntry_free hplace hid]
      refine ih (t := { t with entries := t.entries ++ [_] }) hid (first + 1) (List.mem_append_left _ hold) ?_ ?_ <;> omega

/-- Rows are added all together: there may be too many of them, or one in the way of them. -/
theorem insertEntries_cases (hid : t.hasRecord id = true) (r : Record) :
    (mostValues < valuesOfEntry * r.uncommitted.length ∧
        t.insertEntries (newEntries r id) = .error (.tooManyValues .execution)) ∨
      (¬ t.Free r id ∧ t.insertEntries (newEntries r id) = .error .positionTaken) ∨
      (t.Free r id ∧ t.insertEntries (newEntries r id) =
        .ok { t with entries := t.entries ++ rows id r.persisted r.uncommitted }) := by
  unfold insertEntries
  rw [length_newEntries]
  split
  · rename_i hmany
    exact Or.inl ⟨hmany, rfl⟩
  · refine Or.inr ?_
    by_cases hfree : t.Free r id
    · exact Or.inr ⟨hfree, foldlM_insertEntry hid r.persisted r.uncommitted hfree⟩
    · refine Or.inl ⟨hfree, ?_⟩
      unfold Free at hfree
      push Not at hfree
      obtain ⟨old, hold, hrecord, hfirst, hlast⟩ := hfree
      exact foldlM_insertEntry_taken hid r.persisted r.uncommitted hold hrecord hfirst hlast

/-! ## What an append comes to -/

/-- The header that the record goes by is not there, or not as the record knows it. -/
def Outdated (t : Tables) (r : Record) : Prop :=
  match r.id with
  | none => ∃ h ∈ t.headers, h.session = r.session ∧ h.member = r.member
  | some id => ∀ h ∈ t.headers, h.id = id → h.version ≠ r.version

/-- Why an append is turned down. -/
inductive Declined (t : Tables) (r : Record) : Failure → Prop
  /-- There is nothing to add, and the record is not as it is stored. -/
  | idle : r.uncommitted = [] → t.versionOf r.session r.member ≠ r.version →
      Declined t r (.conflict r.version (t.versionOf r.session r.member))
  | outdated : t.Outdated r → Declined t r (.conflict r.version (t.versionOf r.session r.member))
  /-- No number is left for a new header. -/
  | full : r.id = none → lastNumber ≤ t.lastRecord → Declined t r (.database .full)
  | orphaned : r.id = none → (t.sessions.contains r.session && t.members.contains r.member) = false →
      Declined t r (.database .parentMissing)
  /-- A row is in the place of a new event. -/
  | taken {e : Entry} : e ∈ t.entries → r.id = some e.record → r.persisted ≤ e.position →
      e.position < r.persisted + r.uncommitted.length → Declined t r (.database .positionTaken)
  | long : lastPosition + 1 < r.events.length → Declined t r Store.tooLong
  | last : r.version = lastVersion → Declined t r .noNextVersion
  | many : mostValues < valuesOfEntry * r.uncommitted.length → Declined t r (.database (.tooManyValues .execution))

/-- The header of a record was inserted, or one was raised, and the rows of its new events were added behind all
    others. Everything else is as it was. -/
inductive Added (t : Tables) (r : Record) : RecordId → Tables → Prop
  | opened : r.id = none → t.lastRecord < lastNumber → Added t r (t.lastRecord + 1)
      { t with
        lastRecord := t.lastRecord + 1
        headers := t.headers ++ [⟨t.lastRecord + 1, r.session, r.member, 1⟩]
        entries := t.entries ++ rows (t.lastRecord + 1) r.persisted r.uncommitted }
  | raised {before after : List Header} {h : Header} : r.id = some h.id → h.version = r.version →
      t.headers = before ++ h :: after → Added t r h.id
        { t with
          headers := before ++ { h with version := h.version + 1 } :: after
          entries := t.entries ++ rows h.id r.persisted r.uncommitted }

theorem secureHeader_refused {e : Refusal} (h : t.secureHeader r = .error e) :
    (∃ why, e = .rejected why ∧ t.Declined r (.database why)) ∨ e = .outdated ∧ t.Outdated r := by
  unfold secureHeader at h
  unfold Outdated
  cases hid : r.id with
  | none =>
    rw [hid] at h
    dsimp only at h ⊢
    unfold insertHeader at h
    split at h
    · rename_i hfull
      cases h
      exact Or.inl ⟨_, rfl, .full hid hfull⟩
    split at h
    · rename_i hsome
      cases h
      obtain ⟨head, hhead⟩ := Option.isSome_iff_exists.1 hsome
      have hkey := List.find?_some hhead
      exact Or.inr ⟨rfl, head, List.mem_of_find?_eq_some hhead, of_decide_eq_true hkey⟩
    · split at h
      · cases h
      · rename_i hparents
        cases h
        exact Or.inl ⟨_, rfl, .orphaned hid (Bool.eq_false_iff.2 hparents)⟩
  | some id =>
    rw [hid] at h
    dsimp only at h ⊢
    unfold raiseVersion at h
    split at h
    · cases h
    · rename_i hnone
      cases h
      exact Or.inr ⟨rfl, fun head hh hsame hversion =>
        hnone (List.any_eq_true.2 ⟨head, hh, decide_eq_true ⟨hsame, hversion⟩⟩)⟩

/-- A header that was secured is there, and no row was touched. -/
theorem of_secureHeader (h : t.secureHeader r = .ok (id, t')) : t'.hasRecord id = true ∧ t'.entries = t.entries := by
  rcases eq_of_secureHeader h with ⟨-, -, -, -, rfl, rfl⟩ | ⟨-, header, hmem, hid, -, rfl⟩
  · refine ⟨List.any_eq_true.2 ⟨_, List.mem_append_right _ (List.mem_singleton_self _), decide_eq_true rfl⟩, rfl⟩
  · rw [hasRecord_raised]
    exact ⟨List.any_eq_true.2 ⟨header, hmem, decide_eq_true hid⟩, rfl⟩

/-- No row can be in the way of a new header. -/
theorem id_of_not_free (h : t.Constrained) (hsecure : t.secureHeader r = .ok (id, t')) (hfree : ¬ t.Free r id) :
    ∃ e ∈ t.entries, r.id = some e.record ∧ (r.persisted : Int) ≤ e.position ∧
      e.position < r.persisted + r.uncommitted.length := by
  unfold Free at hfree
  push Not at hfree
  obtain ⟨e, he, rfl, hfirst, hlast⟩ := hfree
  rcases eq_of_secureHeader hsecure with ⟨-, -, -, -, hnew, -⟩ | ⟨hid, -⟩
  · have hle := record_le h he
    lia
  · exact ⟨e, he, hid, hfirst, hlast⟩

/-- An append has nothing to do, or it goes through, or there is a reason for it not to. -/
theorem append_cases (h : t.Constrained) (r : Record) :
    (r.uncommitted = [] ∧ t.append r = ⟨.ok r, t, []⟩) ∨
      (r.uncommitted ≠ [] ∧ ∃ id t', t.secureHeader r = .ok (id, t') ∧ t.Free r id ∧
        t.append r = ⟨.ok (r.stored id), { t' with entries := t.entries ++ rows id r.persisted r.uncommitted }, []⟩) ∨
      ∃ e notes, t.append r = ⟨.error e, t, notes⟩ ∧ t.Declined r e := by
  unfold append
  dsimp only
  split
  · rename_i hu
    rw [List.isEmpty_iff] at hu
    split
    · exact Or.inl ⟨hu, rfl⟩
    · rename_i hversion
      exact Or.inr (Or.inr ⟨_, _, rfl, .idle hu hversion⟩)
  rename_i hu
  rw [List.isEmpty_iff] at hu
  refine Or.inr ?_
  split
  · rename_i hlong
    exact Or.inr ⟨_, _, rfl, .long hlong⟩
  split
  · rename_i hlast
    exact Or.inr ⟨_, _, rfl, .last hlast⟩
  cases hsecure : t.secureHeader r with
  | error e =>
    right
    rcases secureHeader_refused hsecure with ⟨why, rfl, hdeclined⟩ | ⟨rfl, houtdated⟩
    · exact ⟨_, _, rfl, hdeclined⟩
    · exact ⟨_, _, rfl, .outdated houtdated⟩
  | ok p =>
    obtain ⟨id, t'⟩ := p
    obtain ⟨hid, hentries⟩ := of_secureHeader hsecure
    have hsame : t'.Free r id ↔ t.Free r id := by
      unfold Free
      rw [hentries]
    dsimp only
    rcases insertEntries_cases hid r with ⟨hmany, hinsert⟩ | ⟨htaken, hinsert⟩ | ⟨hfree, hinsert⟩
    · right
      rw [hinsert]
      exact ⟨_, _, rfl, .many hmany⟩
    · right
      rw [hinsert]
      obtain ⟨e, he, hrecord, hfirst, hlast⟩ := id_of_not_free h hsecure fun hfree => htaken (hsame.2 hfree)
      exact ⟨_, _, rfl, .taken he hrecord hfirst hlast⟩
    · left
      rw [hinsert, hentries]
      exact ⟨hu, id, t', rfl, hsame.1 hfree, rfl⟩

/-! ### Keys that are kept -/

/-- Anything that is done to tables: an append, a chore, or a row put in by someone else. -/
inductive Move (t : Tables) : Tables → Prop
  | turn {t' : Tables} : Turn t t' → Move t t'
  | insert {t' : Tables} (e : Entry) : t.insertEntry e = .ok t' → Move t t'

abbrev Moves : Tables → Tables → Prop := Relation.ReflTransGen Move

theorem mapM_cases {α β : Type} (f : α → Option β) (xs : List α) :
    (∃ ys, xs.map f = ys.map some ∧ xs.mapM f = some ys) ∨ (∃ x ∈ xs, f x = none) ∧ xs.mapM f = none := by
  induction xs with
  | nil => exact Or.inl ⟨[], rfl, rfl⟩
  | cons x xs ih =>
    cases hx : f x with
    | none => exact Or.inr ⟨⟨x, List.mem_cons_self, hx⟩, by simp [hx]⟩
    | some y =>
      rcases ih with ⟨ys, hmap, hmapM⟩ | ⟨⟨z, hz, hnone⟩, hmapM⟩
      · exact Or.inl ⟨y :: ys, by simp [hx, hmap], by simp [hx, hmapM]⟩
      · exact Or.inr ⟨⟨z, List.mem_cons_of_mem x hz, hnone⟩, by simp [hx, hmapM]⟩

theorem mem_entriesOf {id : RecordId} {e : Entry} : e ∈ t.entriesOf id ↔ e ∈ t.entries ∧ e.record = id := by
  unfold entriesOf
  rw [(List.mergeSort_perm _ _).mem_iff, List.mem_filter, decide_eq_true_iff]

/-- The rows of a log are taken out together, or one of them is in a place that cannot be read and none is. -/
theorem takeEntries_cases (t : Tables) (id : RecordId) :
    ((∀ row ∈ t.entries, row.record = id → fitsPosition row.position = true) ∧
        t.takeEntries id = .ok (t.entriesOf id)) ∨
      (∃ row ∈ t.entries, row.record = id ∧ fitsPosition row.position = false) ∧
        t.takeEntries id = .error (.outOfRange "seq") := by
  unfold takeEntries
  split
  · rename_i hall
    rw [List.all_eq_true] at hall
    exact Or.inl ⟨fun row hrow hrecord => hall row (mem_entriesOf.2 ⟨hrow, hrecord⟩), rfl⟩
  · rename_i hsome
    rw [List.all_eq_true] at hsome
    push Not at hsome
    obtain ⟨row, hrow, hplace⟩ := hsome
    obtain ⟨hmem, hrecord⟩ := mem_entriesOf.1 hrow
    exact Or.inr ⟨⟨row, hmem, hrecord, Bool.not_eq_true _ ▸ hplace⟩, rfl⟩

/-- A record as it is loaded: the rows of its log in the order of their places, each read. -/
structure Whole (t : Tables) (h : Header) (rows : List Entry) (r : Record) : Prop where
  perm : rows.Perm (t.entries.filter fun e => e.record = h.id)
  ascending : rows.Pairwise fun a b => a.position < b.position
  events : rows.map (fun row => Event.ofPayload? row.payload) = r.events.map some
  record : r = .rehydrate h.id h.session h.member h.version r.events

/-- A log is found as a whole, or it is not found because a row of it cannot be taken out or read. -/
structure Legible (t : Tables) : Prop where
  missing : ∀ session member, t.find session member = .ok none ↔
    ∀ h ∈ t.headers, ¬ (h.session = session ∧ h.member = member)
  whole : ∀ h ∈ t.headers, (∀ row ∈ t.entries, row.record = h.id →
      fitsPosition row.position = true ∧ ∃ e, Event.ofPayload? row.payload = some e) →
    ∃ rows r, t.Whole h rows r ∧ t.find h.session h.member = .ok (some r)
  /-- A place that cannot be read is met before any text. -/
  strayed : ∀ h ∈ t.headers, ∀ row ∈ t.entries, row.record = h.id → fitsPosition row.position = false →
    t.find h.session h.member = .error (.database (.outOfRange "seq"))
  broken : ∀ h ∈ t.headers, (∀ row ∈ t.entries, row.record = h.id → fitsPosition row.position = true) →
    ∀ row ∈ t.entries, row.record = h.id → Event.ofPayload? row.payload = none →
    t.find h.session h.member = .error .unreadable
  /-- In a list of records there are no others than those that can be found. -/
  listed : ∀ member sessions rs, t.findAll member sessions = .ok rs → ∀ r ∈ rs, t.find r.session r.member = .ok (some r)

theorem ok_of_bind {ε α β : Type} {x : Except ε α} {f : α → Except ε β} {b : β} (h : (x >>= f) = .ok b) :
    ∃ a, x = .ok a ∧ f a = .ok b := by
  cases x with
  | error e => cases h
  | ok a => exact ⟨a, rfl, h⟩

end Tables

/-! ## Records that can be come by -/

variable {r r' : Record} {t : Tables}

namespace Tables

/-- What an append of the record leaves. -/
structure Settles (t : Tables) (r : Record) : Prop where
  done : ∀ saved, (t.append r).result = .ok saved →
    (r.uncommitted = [] ∧ saved = r ∧ (t.append r).state = t) ∨
      r.uncommitted ≠ [] ∧ ∃ id, saved = r.stored id ∧ t.Added r id (t.append r).state
  refused : ∀ e, (t.append r).result = .error e → (t.append r).state = t ∧ t.Declined r e

end Tables

/-- The member has gone and come back. -/
def back : Record := gone.add (.checkedIn morning)

/-- The lesson with the log of the member and a check-out that someone else has put in, too far on to be read. -/
def strayed : Tables :=
  { attended with
    entries := attended.entries ++ [⟨1, 2147483648, "checked_out", (Event.checkedOut morning).payload, morning⟩] }

end Rollbook
