import Rollbook.Memory
import Rollbook.Proofs.Tables
/-
  Rollbook.Proofs.Store — the two backends as one.

  What is shown of logs is shown of both backends at once: `Store` is either of them,
  and `Shows st s` says that the logs in it are those on the shelf `s`. A question other
  than an append leaves a store as it is, and `append_cases` says what an append does to
  one: nothing, a posting, or nothing again and a failure.

  Who holds which role and where a session belongs may change at any time. Such a change
  is any that leaves the logs alone (`SameLogs`).
-/

namespace Rollbook

open Ledger

/-- Either backend. -/
inductive Store where
  | memory (m : Memory)
  | tables (t : Tables)

namespace Store

def backend : Backend Store := fun q st =>
  match st with
  | .memory m => ⟨(Memory.backend q m).result, .memory (Memory.backend q m).state, (Memory.backend q m).notes⟩
  | .tables t => ⟨(Tables.backend q t).result, .tables (Tables.backend q t).state, (Tables.backend q t).notes⟩

/-- The store answers a question so. -/
def Answers (st : Store) (q : Query) (a : q.Answer) : Prop := (st.backend q).result = .ok a

/-- Nothing was ever stored; who is known and which roles are held does not matter. -/
def Blank : Store → Prop
  | .memory m => m.shelf = .empty
  | .tables t => t.headers = [] ∧ t.entries = [] ∧ t.lastRecord = 0

/-- The two hold the same logs. -/
def SameLogs : Store → Store → Prop
  | .memory m, .memory m' => m'.shelf = m.shelf
  | .tables t, .tables t' => t'.headers = t.headers ∧ t'.entries = t.entries ∧ t'.lastRecord = t.lastRecord
  | _, _ => False

/-- The logs in the store are those on the shelf. -/
def Shows : Store → Shelf → Prop
  | .memory m, s => m.shelf = s
  | .tables t, s => t.Represents s

theorem shows_of_blank {st : Store} (h : st.Blank) : st.Shows .empty := by
  cases st with
  | memory m => exact h
  | tables t =>
    obtain ⟨hh, he, hl⟩ := h
    refine ⟨hl, fun session member => ?_, fun h hmem => ?_, fun session member k hk => ?_, fun session member k hk => ?_,
      fun e hmem => ?_⟩
    · unfold Tables.header?
      rw [hh]
      rfl
    · rw [hh] at hmem
      cases hmem
    · cases hk
    · cases hk
    · rw [he] at hmem
      cases hmem

theorem sameLogs_refl (st : Store) : st.SameLogs st := by
  cases st with
  | memory m => exact rfl
  | tables t => exact ⟨rfl, rfl, rfl⟩

theorem shows_of_sameLogs {st st' : Store} {s : Shelf} (h : st.SameLogs st') (hs : st.Shows s) : st'.Shows s := by
  cases st with
  | memory m =>
    cases st' with
    | memory m' => exact h.trans hs
    | tables t' => cases h
  | tables t =>
    cases st' with
    | memory m' => cases h
    | tables t' =>
      obtain ⟨hh, he, hl⟩ := h
      have hheader : t'.header? = t.header? := by
        unfold Tables.header?
        rw [hh]
      exact ⟨hl.trans hs.last, by rw [hheader]; exact hs.headers, by rw [hheader, hh]; exact hs.own,
        by rw [he]; exact hs.entries, hs.short, by rw [he, hl]; exact hs.issued⟩

/-! ## Questions that are no appends -/

theorem state_eq {q : Query} (h : ∀ r, q ≠ .append r) (st : Store) : (st.backend q).state = st := by
  cases st <;> cases q <;> first | rfl | exact absurd rfl (h _)

section

variable {st : Store} {s : Shelf}

theorem find_eq (hs : st.Shows s) (session : SessionId) (member : MemberId) :
    (st.backend (.find session member)).result = .ok (s.find session member) := by
  cases st with
  | memory m =>
    obtain rfl : m.shelf = s := hs
    rfl
  | tables t => exact Tables.find_eq hs session member

theorem answers_find (hs : st.Shows s) {session : SessionId} {member : MemberId} {found : Option Record} :
    st.Answers (.find session member) found ↔ s.find session member = found := by
  unfold Answers
  rw [find_eq hs]
  exact ⟨Except.ok.inj, congrArg Except.ok⟩

/-- Whatever is listed can be found. -/
theorem find_of_findAll (hs : st.Shows s) {member : MemberId} {sessions : List SessionId} {rs : List Record}
    (h : (st.backend (.findAll member sessions)).result = .ok rs) {r : Record} (hr : r ∈ rs) :
    ∃ session, s.find session member = some r := by
  have hmem : r ∈ s.findAll member sessions := by
    cases st with
    | memory m =>
      obtain rfl : m.shelf = s := hs
      cases h
      exact hr
    | tables t =>
      have h : t.findAll member sessions = .ok rs := h
      by_cases hfew : sessions.length + 1 ≤ Tables.mostValues
      · obtain ⟨rs', hrs, hiff⟩ := Tables.findAll_eq hs member hfew
        rw [h] at hrs
        cases hrs
        exact (hiff r).1 hr
      · unfold Tables.findAll at h
        rw [if_pos (Nat.not_le.1 hfew)] at h
        cases h
  obtain ⟨session, -, hfind⟩ := List.mem_filterMap.1 hmem
  exact ⟨session, hfind⟩

/-- A record that is found is of the session and the member it was asked for, and all of it is
    stored. -/
theorem rehydrate_of_find {session : SessionId} {member : MemberId} {r : Record}
    (h : (st.backend (.find session member)).result = .ok (some r)) :
    ∃ id version events, r = .rehydrate id session member version events := by
  cases st with
  | memory m =>
    have h : m.shelf.find session member = some r := Except.ok.inj h
    obtain ⟨k, -, rfl⟩ := Option.map_eq_some_iff.1 h
    exact ⟨_, _, _, rfl⟩
  | tables t =>
    have h : t.find session member = .ok (some r) := h
    unfold Tables.find at h
    cases hh : t.header? session member with
    | none =>
      rw [hh] at h
      cases h
    | some header =>
      have hkey := List.find?_some (p := fun h : Header => decide (h.session = session ∧ h.member = member)) hh
      obtain ⟨hsession, hmember⟩ := of_decide_eq_true hkey
      rw [hh] at h
      have h : some <$> t.load header = .ok (some r) := h
      cases hload : t.load header with
      | error e =>
        rw [hload] at h
        cases h
      | ok r₀ =>
        rw [hload] at h
        cases h
        refine ⟨header.id, header.version, r.events, (Tables.rehydrate_of_load hload).trans ?_⟩
        rw [hsession, hmember]

/-- What a call goes on with after a look-up, a new record if there was none, has nothing to add yet. -/
theorem whole_of_find {session : SessionId} {member : MemberId} {found : Option Record}
    (h : st.Answers (.find session member) found) :
    (found.getD (.new session member)).Sound ∧ (found.getD (.new session member)).uncommitted = [] ∧
      (found.getD (.new session member)).session = session ∧ (found.getD (.new session member)).member = member := by
  cases found with
  | none => exact ⟨Record.sound_new session member, rfl, rfl, rfl⟩
  | some r =>
    obtain ⟨id, version, events, rfl⟩ := rehydrate_of_find h
    exact ⟨Record.sound_rehydrate id session member version events, List.drop_length, rfl, rfl⟩

end

/-! ## Appends -/

variable {st : Store} {s : Shelf} {ledger : List Record} {r : Record}

/-- What tables say of a log that has no room left. -/
def tooLong : Failure := .validation "attendance log is too long"

theorem append_memory {m : Memory} {res : Except Failure Record} {s' : Shelf} {notes : List Notice}
    (h : m.shelf.append r = ⟨res, s', notes⟩) :
    (Store.memory m).backend (.append r) = ⟨res, .memory { m with shelf := s' }, notes⟩ := by
  simp only [backend, Memory.backend, h]

theorem append_tables {t t' : Tables} {res : Except Failure Record} {notes : List Notice}
    (h : t.append r = ⟨res, t', notes⟩) : (Store.tables t).backend (.append r) = ⟨res, .tables t', notes⟩ := by
  simp only [backend, Tables.backend, h]

/-- An append that was made from another version than the one stored fails and changes nothing. The
    failure names both versions, unless the tables have no room for the log or no number for a new
    header and did not look. -/
theorem append_outdated (hs : st.Shows s) (hb : s.Balanced ledger) (ho : Ordered ledger) (hk : Known ledger s r)
    (hv : s.found r ≠ r.version) :
    ∃ e notes, st.backend (.append r) = ⟨.error e, st, notes⟩ ∧
      (e = .conflict r.version (s.found r) ∨
        ((∃ t, st = .tables t) ∧ r.uncommitted ≠ [] ∧ Tables.lastPosition + 1 < r.events.length ∧ e = tooLong) ∨
        (∃ t, st = .tables t ∧ Tables.lastNumber ≤ t.lastRecord) ∧ r.uncommitted ≠ [] ∧ r.id = none ∧
          e = .database .full) := by
  cases st with
  | memory m =>
    obtain rfl : m.shelf = s := hs
    exact ⟨_, _, append_memory (Shelf.append_outdated hv), Or.inl rfl⟩
  | tables t =>
    by_cases hu : r.uncommitted = []
    · have happend := Tables.append_idle hs hu
      rw [if_neg hv] at happend
      exact ⟨_, _, append_tables happend, Or.inl rfl⟩
    · by_cases hl : r.events.length ≤ Tables.lastPosition + 1
      · by_cases hn : t.HasNumber r
        · exact ⟨_, _, append_tables (Tables.append_outdated hs hb ho hk hn hv hu hl), Or.inl rfl⟩
        · obtain ⟨h0, hfull⟩ := Classical.not_imp.1 hn
          exact ⟨_, _, append_tables (Tables.append_full hs ho hk hn hu hl),
            Or.inr (Or.inr ⟨⟨t, rfl, Int.not_lt.1 hfull⟩, hu, (id_of_unsaved hk h0).1, rfl⟩)⟩
      · have hlong := Nat.not_le.1 hl
        exact ⟨_, _, append_tables (Tables.append_long t hu hlong), Or.inr (Or.inl ⟨⟨t, rfl⟩, hu, hlong, rfl⟩)⟩

theorem append_idle (hs : st.Shows s) (hv : s.found r = r.version) (hu : r.uncommitted = []) :
    st.backend (.append r) = ⟨.ok r, st, []⟩ := by
  cases st with
  | memory m =>
    obtain rfl : m.shelf = s := hs
    exact append_memory (Shelf.append_idle hv hu)
  | tables t =>
    have happend := Tables.append_idle hs hu
    rw [if_pos hv] at happend
    exact append_tables happend

/-- An append from the version that is stored is a posting, unless it is refused as a whole. -/
theorem append_current (hs : st.Shows s) (hb : s.Balanced ledger) (ho : Ordered ledger) (hk : Known ledger s r)
    (hv : s.found r = r.version) (hu : r.uncommitted ≠ []) :
    (∃ st', st.backend (.append r) = ⟨.ok (r.stored (s.postedId r)), st', []⟩ ∧ st'.Shows (s.posted r)) ∨
      ∃ e, st.backend (.append r) = ⟨.error e, st, []⟩ := by
  cases st with
  | memory m =>
    obtain rfl : m.shelf = s := hs
    exact Or.inl ⟨_, append_memory (Shelf.append_posted hv hu), rfl⟩
  | tables t =>
    by_cases hf : t.Fits r
    · obtain ⟨t', happend, hrep, -, -⟩ := Tables.append_posted hs hb ho hk hv hu hf
      exact Or.inl ⟨.tables t', append_tables happend, hrep⟩
    · obtain ⟨e, happend⟩ := Tables.append_unfit hs hb ho hk hv hu hf
      exact Or.inr ⟨e, append_tables happend⟩

/-- An append is a posting, or it leaves the store as it is; then it fails or had nothing to add. -/
theorem append_cases (hs : st.Shows s) (hb : s.Balanced ledger) (ho : Ordered ledger) (hk : Known ledger s r) :
    (s.found r = r.version ∧ r.uncommitted ≠ [] ∧
        ∃ st', st.backend (.append r) = ⟨.ok (r.stored (s.postedId r)), st', []⟩ ∧ st'.Shows (s.posted r)) ∨
      (s.found r = r.version ∧ r.uncommitted = [] ∧ st.backend (.append r) = ⟨.ok r, st, []⟩) ∨
      ∃ e notes, st.backend (.append r) = ⟨.error e, st, notes⟩ := by
  by_cases hv : s.found r = r.version
  · by_cases hu : r.uncommitted = []
    · exact Or.inr (Or.inl ⟨hv, hu, append_idle hs hv hu⟩)
    · rcases append_current hs hb ho hk hv hu with h | ⟨e, h⟩
      · exact Or.inl ⟨hv, hu, h⟩
      · exact Or.inr (Or.inr ⟨e, [], h⟩)
  · obtain ⟨e, notes, h, -⟩ := append_outdated hs hb ho hk hv
    exact Or.inr (Or.inr ⟨e, notes, h⟩)

end Store

end Rollbook
