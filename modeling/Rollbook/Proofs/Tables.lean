import Rollbook.Proofs.Ledger
import Rollbook.Proofs.Payload
import Rollbook.Tables.Log
/-
  Rollbook.Proofs.Tables — logs in tables as logs on a shelf.

  A log in tables is a header and a row for each event. `Represents t s` says that the
  tables hold what lies on the shelf `s`: one header for each log, with its number and
  its version, and under that number the rows of its events in order.

  The two keep their logs in different ways. The shelf compares the version before
  anything else. The tables never compare it for a record without a number: they insert
  a header, and the one that stands there already refuses it; for a record with a number
  they raise the version of that header if it still shows the one given. Whoever knows
  what is stored (`Known`) cannot tell the difference: `append_outdated`, `append_idle`
  and `append_posted` say what the tables do where the shelf does the same under these
  names, and `append_unfit` what only tables refuse.
-/

namespace Rollbook.Tables

/-- The rows of events from a position on. -/
def rows (id : RecordId) (first : Nat) (events : List Event) : List Entry :=
  (events.zipIdx first).map fun (e, i) => ⟨id, i, e.kind, e.payload, e.time⟩

/-- The header of a log. -/
def headerOf (session : SessionId) (member : MemberId) (k : Stored) : Header := ⟨k.id, session, member, k.version⟩

/-- The tables hold the logs of a shelf. -/
structure Represents (t : Tables) (s : Shelf) : Prop where
  last : t.lastRecord = s.lastId
  headers : ∀ session member, t.header? session member = (s.stored? session member).map (headerOf session member)
  own : ∀ h ∈ t.headers, t.header? h.session h.member = some h
  entries : ∀ session member k, s.stored? session member = some k →
    (t.entries.filter fun e => e.record = k.id) = rows k.id 0 k.events
  short : ∀ session member k, s.stored? session member = some k → k.events.length ≤ lastPosition + 1
  issued : ∀ e ∈ t.entries, e.record ≤ t.lastRecord

/-! ## Rows -/

theorem rows_cons (id : RecordId) (first : Nat) (e : Event) (events : List Event) :
    rows id first (e :: events) = ⟨id, first, e.kind, e.payload, e.time⟩ :: rows id (first + 1) events := rfl

theorem rows_append (id : RecordId) (first : Nat) (events new : List Event) :
    rows id first (events ++ new) = rows id first events ++ rows id (first + events.length) new := by
  unfold rows
  rw [List.zipIdx_append, List.map_append]

theorem of_mem_rows {id : RecordId} {first : Nat} {events : List Event} {row : Entry}
    (h : row ∈ rows id first events) : row.record = id ∧ first ≤ row.position ∧ row.position < first + events.length := by
  obtain ⟨⟨e, i⟩, hi, rfl⟩ := List.mem_map.1 h
  have hpos := List.mem_zipIdx hi
  exact ⟨rfl, Int.ofNat_le.2 hpos.1, Int.ofNat_lt.2 hpos.2.1⟩

theorem rows_sorted (id : RecordId) (first : Nat) (events : List Event) :
    (rows id first events).Pairwise fun a b => decide (a.position ≤ b.position) = true := by
  induction events generalizing first with
  | nil => exact .nil
  | cons e events ih =>
    refine .cons (fun row hrow => decide_eq_true ?_) (ih (first + 1))
    have hpos := (of_mem_rows hrow).2.1
    show (first : Int) ≤ row.position
    omega

/-- The events of rows are read back, whatever their places. -/
theorem mapM_payload {α : Type} (id : RecordId) (place : α → Int) (event : α → Event) (xs : List α) :
    (xs.map fun x => (⟨id, place x, (event x).kind, (event x).payload, (event x).time⟩ : Entry)).mapM
      (fun row => Event.ofPayload? row.payload) = some (xs.map event) := by
  induction xs with
  | nil => rfl
  | cons x xs ih =>
    rw [List.map_cons, List.mapM_cons, ih]
    simp only [Event.ofPayload?_payload, Option.bind_eq_bind, Option.bind_some, Option.pure_def, List.map_cons]

theorem mapM_rows (id : RecordId) (first : Nat) (events : List Event) :
    (rows id first events).mapM (fun row => Event.ofPayload? row.payload) = some events :=
  (mapM_payload id (fun p : Event × Nat => (p.2 : Int)) Prod.fst (events.zipIdx first)).trans
    (congrArg some (List.zipIdx_map_fst first events))

theorem fitsPosition_iff {position : Int} :
    fitsPosition position = true ↔ -2147483648 ≤ position ∧ position ≤ lastPosition := by
  unfold fitsPosition
  rw [Bool.and_eq_true, decide_eq_true_iff, decide_eq_true_iff]

/-- Rows go in if no row of their record is in one of their places. -/
theorem foldlM_insertEntry {t : Tables} {id : RecordId} (hid : t.hasRecord id = true) (first : Nat)
    (events : List Event) (hfree : ∀ e ∈ t.entries, e.record = id →
      ¬ ((first : Int) ≤ e.position ∧ e.position < first + events.length)) :
    (rows id first events).foldlM insertEntry t = .ok { t with entries := t.entries ++ rows id first events } := by
  induction events generalizing t first with
  | nil =>
    show Except.ok t = Except.ok { t with entries := t.entries ++ [] }
    rw [List.append_nil]
  | cons e events ih =>
    rw [List.length_cons] at hfree
    have hplace : (t.entries.any fun old => old.record = id ∧ old.position = first) = false := by
      rw [List.any_eq_false]
      intro old hold h
      obtain ⟨hrec, hpos⟩ := of_decide_eq_true h
      have := hfree old hold hrec
      omega
    let row : Entry := ⟨id, first, e.kind, e.payload, e.time⟩
    have hinsert : t.insertEntry row = .ok { t with entries := t.entries ++ [row] } := by
      unfold insertEntry
      rw [if_neg (by rw [hplace]; exact Bool.false_ne_true), if_pos hid]
    have hid' : ({ t with entries := t.entries ++ [row] } : Tables).hasRecord id = true := hid
    have hfree' : ∀ old ∈ t.entries ++ [row], old.record = id →
        ¬ (((first + 1 : Nat) : Int) ≤ old.position ∧ old.position < (first + 1 : Nat) + events.length) := by
      intro old hold hrec
      rcases List.mem_append.1 hold with hold | hold
      · have := hfree old hold hrec
        omega
      · rw [List.mem_singleton.1 hold]
        show ¬ (((first + 1 : Nat) : Int) ≤ (first : Int) ∧ _)
        omega
    rw [rows_cons, List.foldlM_cons, hinsert]
    refine (ih hid' (first + 1) hfree').trans ?_
    rw [List.append_assoc]
    rfl

/-! ## Reading -/

section

variable {t : Tables} {s : Shelf}

theorem entriesOf_stored (hr : t.Represents s) {session : SessionId} {member : MemberId} {k : Stored}
    (hk : s.stored? session member = some k) : t.entriesOf k.id = rows k.id 0 k.events := by
  unfold entriesOf
  rw [hr.entries _ _ k hk]
  exact List.mergeSort_of_pairwise (rows_sorted k.id 0 k.events)

/-- The places of a log fit the type of their column. -/
theorem takeEntries_stored (hr : t.Represents s) {session : SessionId} {member : MemberId} {k : Stored}
    (hk : s.stored? session member = some k) : t.takeEntries k.id = .ok (rows k.id 0 k.events) := by
  have hshort := hr.short _ _ k hk
  have hfits : ((rows k.id 0 k.events).all fun e => fitsPosition e.position) = true := by
    rw [List.all_eq_true]
    intro e he
    obtain ⟨-, hfirst, hlast⟩ := of_mem_rows he
    rw [fitsPosition_iff]
    omega
  unfold takeEntries
  rw [entriesOf_stored hr hk, if_pos hfits]

theorem load_headerOf (hr : t.Represents s) {session : SessionId} {member : MemberId} {k : Stored}
    (hk : s.stored? session member = some k) :
    t.load (headerOf session member k) = .ok (.rehydrate k.id session member k.version k.events) := by
  simp only [load, headerOf, takeEntries_stored hr hk, mapM_rows]

theorem rehydrate_of_load {head : Header} {r : Record} (h : t.load head = .ok r) :
    r = .rehydrate head.id head.session head.member head.version r.events := by
  unfold load at h
  split at h
  · cases h
  · split at h
    · cases h
      rfl
    · cases h

/-- Tables find what lies on the shelf. -/
theorem find_eq (hr : t.Represents s) (session : SessionId) (member : MemberId) :
    t.find session member = .ok (s.find session member) := by
  unfold find Shelf.find
  rw [hr.headers]
  cases hk : s.stored? session member with
  | none => rfl
  | some k =>
    show some <$> t.load (headerOf session member k) = _
    rw [load_headerOf hr hk]
    rfl

/-- A header is that of a log on the shelf. -/
theorem exists_stored_of_mem (hr : t.Represents s) {h : Header} (hh : h ∈ t.headers) :
    ∃ k, s.stored? h.session h.member = some k ∧ h = headerOf h.session h.member k := by
  have hown := hr.own h hh
  rw [hr.headers] at hown
  obtain ⟨k, hk, he⟩ := Option.map_eq_some_iff.1 hown
  exact ⟨k, hk, he.symm⟩

theorem mem_of_stored (hr : t.Represents s) {session : SessionId} {member : MemberId} {k : Stored}
    (hk : s.stored? session member = some k) : headerOf session member k ∈ t.headers := by
  have hh := hr.headers session member
  rw [hk] at hh
  exact List.mem_of_find?_eq_some hh

theorem versionOf_eq (hr : t.Represents s) (r : Record) : t.versionOf r.session r.member = s.found r := by
  unfold versionOf Shelf.found
  rw [hr.headers]
  cases s.stored? r.session r.member <;> rfl

theorem load_of_mem (hr : t.Represents s) {h : Header} (hh : h ∈ t.headers) :
    ∃ r, t.load h = .ok r ∧ s.find h.session h.member = some r := by
  obtain ⟨k, hk, he⟩ := exists_stored_of_mem hr hh
  have hload := load_headerOf hr hk
  rw [← he] at hload
  refine ⟨_, hload, ?_⟩
  unfold Shelf.find
  rw [hk]
  rfl

theorem mapM_load (hr : t.Represents s) {hs : List Header} (hmem : ∀ h ∈ hs, h ∈ t.headers) :
    ∃ rs, hs.mapM t.load = .ok rs ∧ ∀ r, r ∈ rs ↔ ∃ h ∈ hs, s.find h.session h.member = some r := by
  induction hs with
  | nil => exact ⟨[], rfl, fun r => by simp⟩
  | cons h hs ih =>
    obtain ⟨rs, hrs, hiff⟩ := ih fun g hg => hmem g (List.mem_cons_of_mem h hg)
    obtain ⟨r₀, hload, hfind⟩ := load_of_mem hr (hmem h List.mem_cons_self)
    refine ⟨r₀ :: rs, ?_, fun r => ?_⟩
    · rw [List.mapM_cons, hload, hrs]
      rfl
    · rw [List.mem_cons, hiff]
      constructor
      · rintro (rfl | ⟨g, hg, hgr⟩)
        · exact ⟨h, List.mem_cons_self, hfind⟩
        · exact ⟨g, List.mem_cons_of_mem h hg, hgr⟩
      · rintro ⟨g, hg, hgr⟩
        rcases List.mem_cons.1 hg with rfl | hg
        · exact Or.inl (Option.some.inj (hgr.symm.trans hfind))
        · exact Or.inr ⟨g, hg, hgr⟩

/-- The records of a member in some sessions are those on the shelf, if they can be asked for at once. -/
theorem findAll_eq (hr : t.Represents s) (member : MemberId) {sessions : List SessionId}
    (hfew : sessions.length + 1 ≤ mostValues) :
    ∃ rs, t.findAll member sessions = .ok rs ∧ ∀ r, r ∈ rs ↔ r ∈ s.findAll member sessions := by
  have hmem : ∀ h ∈ t.headers.filter fun h => h.member = member ∧ h.session ∈ sessions, h ∈ t.headers :=
    fun h hh => (List.mem_filter.1 hh).1
  obtain ⟨rs, hrs, hiff⟩ := mapM_load hr hmem
  refine ⟨rs, ?_, fun r => ?_⟩
  · unfold findAll
    rw [if_neg (by omega), hrs]
  · rw [hiff]
    unfold Shelf.findAll
    rw [List.mem_filterMap]
    constructor
    · rintro ⟨h, hh, hfind⟩
      obtain ⟨hm, hin⟩ := of_decide_eq_true (List.mem_filter.1 hh).2
      exact ⟨h.session, hin, hm ▸ hfind⟩
    · rintro ⟨session, hin, hfind⟩
      obtain ⟨k, hk, -⟩ := Option.map_eq_some_iff.1 hfind
      exact ⟨headerOf session member k, List.mem_filter.2 ⟨mem_of_stored hr hk, decide_eq_true ⟨rfl, hin⟩⟩, hfind⟩

end

/-! ## Securing a header -/

open Ledger

variable {t : Tables} {s : Shelf} {ledger : List Record} {r : Record}

/-- Two headers with one number are one header. -/
theorem eq_of_id (hr : t.Represents s) (hb : s.Balanced ledger) {h h' : Header} (hh : h ∈ t.headers)
    (hh' : h' ∈ t.headers) (he : h.id = h'.id) : h = h' := by
  obtain ⟨k, hk, hek⟩ := exists_stored_of_mem hr hh
  obtain ⟨k', hk', hek'⟩ := exists_stored_of_mem hr hh'
  have hid : k.id = k'.id := by
    rw [hek, hek'] at he
    exact he
  have hkey := hb.distinct _ _ k _ _ k' hk hk' hid
  rw [Prod.mk.injEq] at hkey
  have hown := hr.own h hh
  rw [hkey.1, hkey.2, hr.own h' hh'] at hown
  exact (Option.some.inj hown).symm

/-- There is a number for the header of a record that was never stored. -/
def HasNumber (t : Tables) (r : Record) : Prop := r.version = 0 → t.lastRecord < lastNumber

/-- No header is secured for a record that shows another version than its log. -/
theorem secureHeader_outdated (hr : t.Represents s) (hb : s.Balanced ledger) (hk : Known ledger s r)
    (hn : t.HasNumber r) (hv : s.found r ≠ r.version) : t.secureHeader r = .error .outdated := by
  by_cases h0 : r.version = 0
  · have hid := (id_of_unsaved hk h0).1
    have hsome : (t.header? r.session r.member).isSome = true := by
      rw [hr.headers]
      cases hs : s.stored? r.session r.member with
      | some k => rfl
      | none =>
        rw [h0] at hv
        unfold Shelf.found at hv
        rw [hs] at hv
        exact absurd rfl hv
    simp only [secureHeader, hid, insertHeader, if_neg (Int.not_le.2 (hn h0)), if_pos hsome]
  · obtain ⟨k, hs, hid⟩ := id_of_saved hk hb h0
    have hnone : (t.headers.any fun h => h.id = k.id ∧ h.version = r.version) = false := by
      rw [List.any_eq_false]
      intro h hh hand
      obtain ⟨he, hver⟩ := of_decide_eq_true hand
      have hsame := eq_of_id hr hb hh (mem_of_stored hr hs) he
      rw [hsame] at hver
      exact hv ((Shelf.found_of_stored hs).trans hver)
    have hraise : t.raiseVersion k.id r.version = .error .outdated := by
      unfold raiseVersion
      rw [if_neg (by rw [hnone]; exact Bool.false_ne_true)]
    simp only [secureHeader, hid, hraise]
    rfl

/-- Without a number for it no header is inserted, whatever there is. -/
theorem secureHeader_full (hk : Known ledger s r) (hn : ¬ t.HasNumber r) :
    t.secureHeader r = .error (.rejected .full) := by
  obtain ⟨h0, hfull⟩ := Classical.not_imp.1 hn
  have hid := (id_of_unsaved hk h0).1
  simp only [secureHeader, hid, insertHeader, if_pos (Int.not_lt.1 hfull)]

/-- The tables after the header of a new log was inserted. -/
def opened (t : Tables) (r : Record) : Tables :=
  { t with
    lastRecord := t.lastRecord + 1
    headers := t.headers ++ [⟨t.lastRecord + 1, r.session, r.member, r.version + 1⟩] }

/-- The tables after the version of a log was raised. -/
def raised (t : Tables) (id : RecordId) (version : Version) : Tables :=
  { t with headers := t.headers.map fun h => if h.id = id then { h with version := version + 1 } else h }

theorem secureHeader_new (hr : t.Represents s) (hb : s.Balanced ledger) (hk : Known ledger s r)
    (hn : t.HasNumber r) (hv : s.found r = r.version) (h0 : r.version = 0) :
    t.secureHeader r =
      if t.sessions.contains r.session && t.members.contains r.member then .ok (t.lastRecord + 1, t.opened r)
      else .error (.rejected .parentMissing) := by
  have hid := (id_of_unsaved hk h0).1
  have hnone : ¬ (t.header? r.session r.member).isSome = true := by
    rw [hr.headers, Shelf.unstored_of_found hb (hv.trans h0)]
    exact Bool.false_ne_true
  simp only [secureHeader, hid, insertHeader, if_neg (Int.not_le.2 (hn h0)), if_neg hnone]
  rfl

theorem secureHeader_saved (hr : t.Represents s) (hb : s.Balanced ledger) (hk : Known ledger s r)
    (hv : s.found r = r.version) (h0 : r.version ≠ 0) :
    t.secureHeader r = .ok (s.postedId r, t.raised (s.postedId r) r.version) := by
  obtain ⟨k, hs, hid⟩ := id_of_saved hk hb h0
  have hany : (t.headers.any fun h => h.id = k.id ∧ h.version = r.version) = true := by
    rw [List.any_eq_true]
    exact ⟨_, mem_of_stored hr hs, decide_eq_true ⟨rfl, (Shelf.found_of_stored hs).symm.trans hv⟩⟩
  have hposted := Shelf.postedId_of_stored hs
  have hraise : t.raiseVersion k.id r.version = .ok (t.raised k.id r.version) := by
    unfold raiseVersion
    rw [if_pos hany]
    rfl
  simp only [secureHeader, hid, hraise, hposted]
  rfl

/-! ## What a posting leaves -/

/-- The rows of a posting continue the rows of its log and stand under no other number. -/
theorem entries_posted (hr : t.Represents s) (hb : s.Balanced ledger) (hk : Known ledger s r)
    (hv : s.found r = r.version) (session : SessionId) (member : MemberId) (k : Stored)
    (hs : (s.posted r).stored? session member = some k) :
    ((t.entries ++ rows (s.postedId r) r.persisted r.uncommitted).filter fun e => e.record = k.id) =
      rows k.id 0 k.events := by
  rw [List.filter_append]
  rcases Shelf.stored_of_posted hb hs with ⟨hkey, rfl⟩ | ⟨-, hs, hne⟩
  · cases hkey
    dsimp only
    have hold : (t.entries.filter fun e => e.record = s.postedId r) =
        rows (s.postedId r) 0 (log (of ledger r.session r.member)) := by
      cases hk₀ : s.stored? r.session r.member with
      | some k₀ => rw [Shelf.postedId_of_stored hk₀, hr.entries _ _ k₀ hk₀, (hb.kept _ _ k₀ hk₀).2.2]
      | none =>
        rw [hb.missing _ _ hk₀]
        refine List.filter_eq_nil_iff.2 fun e he hrec => ?_
        have hle := hr.issued e he
        rw [of_decide_eq_true hrec, Shelf.postedId_of_unstored hk₀, hr.last] at hle
        exact absurd hle (Int.not_le.2 (Int.lt_succ s.lastId))
    have hnew : ((rows (s.postedId r) r.persisted r.uncommitted).filter fun e => e.record = s.postedId r) =
        rows (s.postedId r) r.persisted r.uncommitted :=
      List.filter_eq_self.2 fun e he => decide_eq_true (of_mem_rows he).1
    rw [hold, hnew, rows_append, Nat.zero_add, Shelf.length_of_found hk hb hv]
  · have hnew : ((rows (s.postedId r) r.persisted r.uncommitted).filter fun e => e.record = k.id) = [] :=
      List.filter_eq_nil_iff.2 fun e he hrec =>
        hne ((of_decide_eq_true hrec).symm.trans (of_mem_rows he).1)
    rw [hr.entries _ _ k hs, hnew, List.append_nil]

/-- A posting with room for its log leaves no log longer than that. -/
theorem short_posted (hr : t.Represents s) (hb : s.Balanced ledger) (hk : Known ledger s r) (hv : s.found r = r.version)
    (hs : r.events.length ≤ lastPosition + 1) (session : SessionId) (member : MemberId) (k : Stored)
    (hposted : (s.posted r).stored? session member = some k) : k.events.length ≤ lastPosition + 1 := by
  rcases Shelf.stored_of_posted hb hposted with ⟨-, rfl⟩ | ⟨-, hold, -⟩
  · dsimp only
    rw [Shelf.events_of_found hk hb hv]
    exact hs
  · exact hr.short _ _ k hold

theorem issued_posted (hr : t.Represents s) (hb : s.Balanced ledger) {last : RecordId}
    (hlast : last = (s.posted r).lastId) :
    ∀ e ∈ t.entries ++ rows (s.postedId r) r.persisted r.uncommitted, e.record ≤ last := by
  intro e he
  rw [hlast]
  rcases List.mem_append.1 he with he | he
  · exact Int.le_trans (hr.last ▸ hr.issued e he) (Shelf.lastId_le_posted s r)
  · rw [(of_mem_rows he).1]
    exact (Shelf.postedId_issued hb r).2

theorem header?_opened (t : Tables) (r : Record) (session : SessionId) (member : MemberId) :
    (t.opened r).header? session member =
      (t.header? session member).or (if (r.session, r.member) = (session, member) then
        some ⟨t.lastRecord + 1, r.session, r.member, r.version + 1⟩ else none) := by
  show (t.headers ++ [_]).find? _ = _
  rw [List.find?_append]
  refine congrArg (Option.or _) ?_
  by_cases h : (r.session, r.member) = (session, member)
  · rw [if_pos h]
    exact List.find?_cons_of_pos (decide_eq_true (Prod.mk.injEq .. ▸ h))
  · rw [if_neg h]
    refine List.find?_cons_of_neg (fun hd => h ?_)
    obtain ⟨hs, hm⟩ := of_decide_eq_true hd
    exact Prod.ext hs hm

/-- A new log with its events. -/
theorem represents_opened (hr : t.Represents s) (hb : s.Balanced ledger) (hk : Known ledger s r)
    (hv : s.found r = r.version) (hs : r.events.length ≤ lastPosition + 1) (h0 : r.version = 0) :
    s.postedId r = t.lastRecord + 1 ∧
      Represents { t.opened r with entries := t.entries ++ rows (s.postedId r) r.persisted r.uncommitted }
        (s.posted r) := by
  have hnone := Shelf.unstored_of_found hb (hv.trans h0)
  have hid : s.postedId r = t.lastRecord + 1 := by rw [Shelf.postedId_of_unstored hnone, hr.last]
  have hlast : t.lastRecord + 1 = (s.posted r).lastId := by
    unfold Shelf.posted
    rw [hnone, hr.last]
    rfl
  have hmissing : t.header? r.session r.member = none := by
    rw [hr.headers, hnone]
    rfl
  have hself : (t.opened r).header? r.session r.member =
      some ⟨t.lastRecord + 1, r.session, r.member, r.version + 1⟩ := by
    rw [header?_opened, hmissing, if_pos rfl]
    rfl
  refine ⟨hid, hlast, ?_, ?_, entries_posted hr hb hk hv, short_posted hr hb hk hv hs, issued_posted hr hb hlast⟩
  · intro session member
    show (t.opened r).header? session member = _
    by_cases hkey : (session, member) = (r.session, r.member)
    · cases hkey
      rw [hself, Shelf.stored?_posted_self hb, ← hid]
      rfl
    · rw [header?_opened, if_neg (fun h => hkey h.symm), Option.or_none, Shelf.stored?_posted_other hkey]
      exact hr.headers session member
  · intro h hh
    show (t.opened r).header? h.session h.member = some h
    rcases List.mem_append.1 hh with hh | hh
    · rw [header?_opened, hr.own h hh]
      rfl
    · rw [List.mem_singleton.1 hh]
      exact hself

theorem header?_raised (t : Tables) (id : RecordId) (version : Version) (session : SessionId) (member : MemberId) :
    (t.raised id version).header? session member =
      (t.header? session member).map fun h => if h.id = id then { h with version := version + 1 } else h := by
  unfold header? raised
  dsimp only
  rw [List.find?_map]
  refine congrArg (Option.map _) (congrArg (fun p => List.find? p t.headers) (funext fun h => ?_))
  simp only [Function.comp_apply]
  split <;> rfl

/-- A saved log with more events. -/
theorem represents_raised (hr : t.Represents s) (hb : s.Balanced ledger) (hk : Known ledger s r)
    (hv : s.found r = r.version) (hshort : r.events.length ≤ lastPosition + 1) (h0 : r.version ≠ 0) :
    Represents { t.raised (s.postedId r) r.version with
        entries := t.entries ++ rows (s.postedId r) r.persisted r.uncommitted } (s.posted r) := by
  obtain ⟨k, hs, -⟩ := id_of_saved hk hb h0
  have hid := Shelf.postedId_of_stored hs
  have hlast : t.lastRecord = (s.posted r).lastId := by
    unfold Shelf.posted
    rw [hs]
    exact hr.last
  refine ⟨hlast, ?_, ?_, entries_posted hr hb hk hv, short_posted hr hb hk hv hshort, issued_posted hr hb hlast⟩
  · intro session member
    show (t.raised (s.postedId r) r.version).header? session member = _
    rw [header?_raised, hr.headers]
    by_cases hkey : (session, member) = (r.session, r.member)
    · cases hkey
      rw [hs, Shelf.stored?_posted_self hb]
      simp only [Option.map_some, headerOf, hid, if_pos]
    · rw [Shelf.stored?_posted_other hkey]
      cases hs' : s.stored? session member with
      | none => rfl
      | some k' =>
        have hne := Shelf.postedId_other hb hkey hs'
        simp only [Option.map_some, headerOf, if_neg hne]
  · intro h hh
    obtain ⟨h₀, hh₀, rfl⟩ := List.mem_map.1 hh
    show (t.raised (s.postedId r) r.version).header? _ _ = _
    rw [header?_raised]
    have hown := hr.own h₀ hh₀
    by_cases hid₀ : h₀.id = s.postedId r
    · simp only [if_pos hid₀, hown, Option.map_some]
    · simp only [if_neg hid₀, hown, Option.map_some]

/-! ## What an append does -/

/-- What tables ask of a record beyond the version it shows: room for its log, no more rows than one
    request can name, and a number for a new header and the rows that it names. -/
structure Fits (t : Tables) (r : Record) : Prop where
  short : r.events.length ≤ lastPosition + 1
  few : valuesOfEntry * r.uncommitted.length ≤ mostValues
  number : t.HasNumber r
  parents : r.version = 0 → (t.sessions.contains r.session && t.members.contains r.member) = true

theorem append_idle (hr : t.Represents s) (h : r.uncommitted = []) :
    t.append r =
      if s.found r = r.version then ⟨.ok r, t, []⟩ else ⟨.error (.conflict r.version (s.found r)), t, []⟩ := by
  unfold append
  rw [versionOf_eq hr, h]
  rfl

theorem append_long (t : Tables) (h : r.uncommitted ≠ []) (hl : lastPosition + 1 < r.events.length) :
    t.append r = ⟨.error (.validation "attendance log is too long"), t, []⟩ := by
  have he : ¬ r.uncommitted.isEmpty = true := by rwa [List.isEmpty_iff]
  unfold append
  dsimp only
  rw [if_neg he, if_pos hl]

/-- With room for its log a record shows no last version. -/
theorem append_short (hr : t.Represents s) (ho : Ordered ledger) (hk : Known ledger s r) (h : r.uncommitted ≠ [])
    (hs : r.events.length ≤ lastPosition + 1) :
    t.append r = match t.secureHeader r with
      | .error (.rejected e) => ⟨.error (.database e), t, []⟩
      | .error .outdated =>
        ⟨.error (.conflict r.version (s.found r)), t, [.versionConflict r.session r.member r.version (s.found r)]⟩
      | .ok (id, t') =>
        match t'.insertEntries (newEntries r id) with
        | .error e => ⟨.error (.database e), t, []⟩
        | .ok t'' => ⟨.ok (r.stored id), t'', []⟩ := by
  have he : ¬ r.uncommitted.isEmpty = true := by rwa [List.isEmpty_iff]
  have hlast : r.version ≠ lastVersion := by
    intro hv
    have hle := version_le_length ho hk
    have hsmall : (r.events.length : Int) ≤ 2147483648 := Int.ofNat_le.2 hs
    rw [hv] at hle
    exact absurd (Int.le_trans hle hsmall) (by decide)
  unfold append
  dsimp only
  rewrite [if_neg he, if_neg (Nat.not_lt.2 hs), if_neg hlast, versionOf_eq hr]
  rfl

theorem append_outdated (hr : t.Represents s) (hb : s.Balanced ledger) (ho : Ordered ledger)
    (hk : Known ledger s r) (hn : t.HasNumber r) (hv : s.found r ≠ r.version) (h : r.uncommitted ≠ [])
    (hs : r.events.length ≤ lastPosition + 1) :
    t.append r = ⟨.error (.conflict r.version (s.found r)), t,
      [.versionConflict r.session r.member r.version (s.found r)]⟩ := by
  rw [append_short hr ho hk h hs, secureHeader_outdated hr hb hk hn hv]

theorem append_full (hr : t.Represents s) (ho : Ordered ledger) (hk : Known ledger s r) (hn : ¬ t.HasNumber r)
    (h : r.uncommitted ≠ []) (hs : r.events.length ≤ lastPosition + 1) :
    t.append r = ⟨.error (.database .full), t, []⟩ := by
  rw [append_short hr ho hk h hs, secureHeader_full hk hn]

theorem length_newEntries (r : Record) (id : RecordId) : (newEntries r id).length = r.uncommitted.length := by
  unfold newEntries
  rw [List.length_map, List.length_zipIdx]

/-- The rows of a record go into tables that have a header for them. -/
theorem insertEntries_posted {t' : Tables} (hr : t.Represents s) (hb : s.Balanced ledger) (hk : Known ledger s r)
    (hv : s.found r = r.version) (he : t'.entries = t.entries) (hid : t'.hasRecord (s.postedId r) = true)
    (hf : valuesOfEntry * r.uncommitted.length ≤ mostValues) :
    t'.insertEntries (newEntries r (s.postedId r)) =
      .ok { t' with entries := t.entries ++ rows (s.postedId r) r.persisted r.uncommitted } := by
  have hfree : ∀ e ∈ t'.entries, e.record = s.postedId r → e.position < r.persisted := by
    intro e hmem hrec
    rw [he] at hmem
    cases hs : s.stored? r.session r.member with
    | some k =>
      have hmem' : e ∈ rows k.id 0 k.events := by
        rw [← hr.entries _ _ k hs]
        exact List.mem_filter.2 ⟨hmem, decide_eq_true (hrec.trans (Shelf.postedId_of_stored hs))⟩
      have hpos := (of_mem_rows hmem').2.2
      rw [← Shelf.length_of_found hk hb hv, ← (hb.kept _ _ k hs).2.2]
      omega
    | none =>
      have hle := hr.issued e hmem
      rw [hrec, Shelf.postedId_of_unstored hs, hr.last] at hle
      exact absurd hle (Int.not_le.2 (Int.lt_succ s.lastId))
  unfold insertEntries
  rw [if_neg (by rw [length_newEntries]; omega), ← he]
  exact foldlM_insertEntry hid r.persisted r.uncommitted fun e hmem hrec hplace =>
    absurd (hfree e hmem hrec) (Int.not_lt.2 hplace.1)

/-- A posting goes through and leaves what it leaves on the shelf. -/
theorem append_posted (hr : t.Represents s) (hb : s.Balanced ledger) (ho : Ordered ledger)
    (hk : Known ledger s r) (hv : s.found r = r.version) (h : r.uncommitted ≠ []) (hf : t.Fits r) :
    ∃ t', t.append r = ⟨.ok (r.stored (s.postedId r)), t', []⟩ ∧ t'.Represents (s.posted r) ∧
      t'.sessions = t.sessions ∧ t'.members = t.members := by
  by_cases h0 : r.version = 0
  · obtain ⟨hid, hrep⟩ := represents_opened hr hb hk hv hf.short h0
    have hrec : (t.opened r).hasRecord (s.postedId r) = true := by
      unfold hasRecord opened
      rw [List.any_append, hid]
      simp
    have hinsert := insertEntries_posted hr hb hk hv (rfl : (t.opened r).entries = t.entries) hrec hf.few
    refine ⟨_, ?_, hrep, rfl, rfl⟩
    rw [append_short hr ho hk h hf.short, secureHeader_new hr hb hk hf.number hv h0, if_pos (hf.parents h0), ← hid]
    simp only [hinsert]
  · obtain ⟨k, hs, -⟩ := id_of_saved hk hb h0
    have hid := Shelf.postedId_of_stored hs
    have hrec : (t.raised (s.postedId r) r.version).hasRecord (s.postedId r) = true := by
      unfold hasRecord raised
      rw [List.any_map, List.any_eq_true]
      refine ⟨_, mem_of_stored hr hs, ?_⟩
      simp [headerOf, hid]
    have hinsert := insertEntries_posted hr hb hk hv
      (rfl : (t.raised (s.postedId r) r.version).entries = t.entries) hrec hf.few
    refine ⟨_, ?_, represents_raised hr hb hk hv hf.short h0, rfl, rfl⟩
    rw [append_short hr ho hk h hf.short, secureHeader_saved hr hb hk hv h0]
    simp only [hinsert]

/-- What does not fit is refused as a whole. -/
theorem append_unfit (hr : t.Represents s) (hb : s.Balanced ledger) (ho : Ordered ledger)
    (hk : Known ledger s r) (hv : s.found r = r.version) (h : r.uncommitted ≠ []) (hf : ¬ t.Fits r) :
    ∃ e, t.append r = ⟨.error e, t, []⟩ := by
  by_cases hs : r.events.length ≤ lastPosition + 1
  swap
  · exact ⟨_, append_long t h (Nat.not_le.1 hs)⟩
  by_cases hn : t.HasNumber r
  swap
  · exact ⟨_, append_full hr ho hk hn h hs⟩
  have hmany : ∀ (id : RecordId) (t' : Tables), mostValues < valuesOfEntry * r.uncommitted.length →
      t'.insertEntries (newEntries r id) = .error (.tooManyValues .execution) := by
    intro id t' hlt
    unfold insertEntries
    rw [if_pos (by rw [length_newEntries]; exact hlt)]
  rw [append_short hr ho hk h hs]
  by_cases h0 : r.version = 0
  · rw [secureHeader_new hr hb hk hn hv h0]
    by_cases hp : (t.sessions.contains r.session && t.members.contains r.member) = true
    · have hfew : mostValues < valuesOfEntry * r.uncommitted.length :=
        Nat.not_le.1 fun hfew => hf ⟨hs, hfew, hn, fun _ => hp⟩
      rw [if_pos hp]
      simp only [hmany _ _ hfew]
      exact ⟨_, rfl⟩
    · rw [if_neg hp]
      exact ⟨_, rfl⟩
  · have hfew : mostValues < valuesOfEntry * r.uncommitted.length :=
      Nat.not_le.1 fun hfew => hf ⟨hs, hfew, hn, fun hv0 => absurd hv0 h0⟩
    rw [secureHeader_saved hr hb hk hv h0]
    simp only [hmany _ _ hfew]
    exact ⟨_, rfl⟩

end Rollbook.Tables
