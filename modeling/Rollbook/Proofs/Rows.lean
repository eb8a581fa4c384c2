import Rollbook.Proofs.Alike
import Rollbook.Proofs.Returned
/-
  Rollbook.Proofs.Rows — what the rows of tables say at any time.

  A log in tables says some things more than once: its version beside the number of its
  events, the place of each event beside the order in which it came, and of each event
  the kind and the time beside the text. In every reachable world these agree (`Filed`),
  there is one header for each log, and the record that is found is the one that was
  returned when the log was last added to (`filed_of_reach`).

  What an append may do to tables, whatever record it is given, is said once, in
  `append_outcome`, and what it leaves in `state_append`.
-/

namespace Rollbook

open Ledger World

namespace Tables

variable {t : Tables} {r : Record}

/-! ## What any append does to tables -/

/-- Rows that go in stand behind all others. -/
theorem eq_of_insertEntries {entries : List Entry} {t' : Tables} (h : t.insertEntries entries = .ok t') :
    t' = { t with entries := t.entries ++ entries } := by
  unfold insertEntries at h
  split at h
  · cases h
  clear * - h
  induction entries generalizing t with
  | nil =>
    cases h
    rw [List.append_nil]
  | cons e entries ih =>
    rw [List.foldlM_cons] at h
    have hone : t.insertEntry e = .ok { t with entries := t.entries ++ [e] } ∨ ∃ err, t.insertEntry e = .error err := by
      unfold insertEntry
      split
      · exact Or.inr ⟨_, rfl⟩
      · split
        · exact Or.inl rfl
        · exact Or.inr ⟨_, rfl⟩
    rcases hone with hone | ⟨err, hone⟩
    · rw [hone] at h
      rw [ih h, List.append_assoc]
      rfl
    · rw [hone] at h
      cases h

theorem eq_of_secureHeader {id : RecordId} {t' : Tables} (h : t.secureHeader r = .ok (id, t')) :
    (r.id = none ∧ t.lastRecord < lastNumber ∧ t.header? r.session r.member = none ∧
        (t.sessions.contains r.session && t.members.contains r.member) = true ∧ id = t.lastRecord + 1 ∧ t' = t.opened r) ∨
      r.id = some id ∧ ∃ header ∈ t.headers, header.id = id ∧ header.version = r.version ∧ t' = t.raised id r.version := by
  unfold secureHeader at h
  split at h
  · rename_i hid
    refine Or.inl ⟨hid, ?_⟩
    unfold insertHeader at h
    split at h
    · cases h
    rename_i hnumber
    split at h
    · cases h
    rename_i hnone
    split at h
    · rename_i hparents
      cases h
      exact ⟨Int.not_le.1 hnumber, Option.not_isSome_iff_eq_none.1 hnone, hparents, rfl, rfl⟩
    · cases h
  · rename_i hid
    unfold raiseVersion at h
    split at h
    · rename_i hany
      cases h
      obtain ⟨header, hmem, hsame⟩ := List.any_eq_true.1 hany
      obtain ⟨hheader, hversion⟩ := of_decide_eq_true hsame
      exact Or.inr ⟨hid, header, hmem, hheader, hversion, rfl⟩
    · cases h

/-- An append fails and changes nothing, or it has nothing to add, or it secures a header and adds its rows behind all
    others. -/
theorem append_outcome (t : Tables) (r : Record) :
    (∃ e notes, t.append r = ⟨.error e, t, notes⟩) ∨ (r.uncommitted = [] ∧ t.append r = ⟨.ok r, t, []⟩) ∨
      r.uncommitted ≠ [] ∧ ∃ id t', t.secureHeader r = .ok (id, t') ∧
        t.append r = ⟨.ok (r.stored id), { t' with entries := t'.entries ++ newEntries r id }, []⟩ := by
  unfold append
  dsimp only
  split
  · rename_i hu
    rw [List.isEmpty_iff] at hu
    split
    · exact Or.inr (Or.inl ⟨hu, rfl⟩)
    · exact Or.inl ⟨_, _, rfl⟩
  rename_i hu
  rw [List.isEmpty_iff] at hu
  split
  · exact Or.inl ⟨_, _, rfl⟩
  split
  · exact Or.inl ⟨_, _, rfl⟩
  split
  · exact Or.inl ⟨_, _, rfl⟩
  · exact Or.inl ⟨_, _, rfl⟩
  · rename_i id t' hsecure
    split
    · exact Or.inl ⟨_, _, rfl⟩
    · rename_i t'' hinsert
      obtain rfl := eq_of_insertEntries hinsert
      exact Or.inr (Or.inr ⟨hu, id, t', hsecure, rfl⟩)

/-- An append changes nothing, or it has something to add: then it opens a log or raises the version of one from
    that of the record, and adds its rows behind all others. -/
theorem state_append (t : Tables) (r : Record) :
    (t.append r).state = t ∨ r.uncommitted ≠ [] ∧
      ((t.header? r.session r.member = none ∧ (t.sessions.contains r.session && t.members.contains r.member) = true ∧
          (t.append r).state = { t.opened r with entries := t.entries ++ newEntries r (t.lastRecord + 1) }) ∨
        ∃ header ∈ t.headers, header.version = r.version ∧
          (t.append r).state = { t.raised header.id r.version with entries := t.entries ++ newEntries r header.id }) := by
  rcases append_outcome t r with ⟨e, notes, happend⟩ | ⟨-, happend⟩ | ⟨hu, id, t', hsecure, happend⟩
  · rw [happend]
    exact Or.inl rfl
  · rw [happend]
    exact Or.inl rfl
  · rw [happend]
    rcases eq_of_secureHeader hsecure with ⟨-, -, hnone, hparents, rfl, rfl⟩ | ⟨-, header, hmem, rfl, hversion, rfl⟩
    · exact Or.inr ⟨hu, Or.inl ⟨hnone, hparents, rfl⟩⟩
    · exact Or.inr ⟨hu, Or.inr ⟨header, hmem, hversion, rfl⟩⟩

/-! ## One header for each log -/

/-- No two headers are of the same session and member. -/
def Apart (t : Tables) : Prop := t.headers.Pairwise fun h h' => (h.session, h.member) ≠ (h'.session, h'.member)

theorem apart_append (h : t.Apart) (r : Record) : (t.append r).state.Apart := by
  rcases state_append t r with hsame | ⟨-, ⟨hnone, -, hopened⟩ | ⟨header, -, -, hraised⟩⟩
  · rw [hsame]
    exact h
  · rw [hopened]
    refine List.pairwise_append.2 ⟨h, List.pairwise_singleton _ _, fun old hold new hnew hkey => ?_⟩
    rw [List.mem_singleton.1 hnew, Prod.mk.injEq] at hkey
    exact List.find?_eq_none.1 hnone old hold (decide_eq_true hkey)
  · rw [hraised]
    refine List.pairwise_map.2 (h.imp fun {a b} hne => ?_)
    split <;> split <;> exact hne

/-! ## The rows of a log -/

/-- The rows of a log are in the places from 0 on, each has a text that says its kind and its time, and the
    version counts the appends, none of which was without an event. -/
structure Filed (t : Tables) (ledger : List Record) (h : Header) : Prop where
  positions : (t.entriesOf h.id).map (·.position) =
    (List.range (t.entriesOf h.id).length).map fun (i : Nat) => (i : Int)
  texts : ∀ row ∈ t.entriesOf h.id, ∃ e, Event.ofPayload? row.payload = some e ∧ e.kind = row.kind ∧ e.time = row.time
  counted : h.version = (of ledger h.session h.member).length
  first : 1 ≤ h.version
  last : h.version ≤ (t.entriesOf h.id).length

theorem length_rows (id : RecordId) (first : Nat) (events : List Event) :
    (rows id first events).length = events.length := by
  unfold rows
  rw [List.length_map, List.length_zipIdx]

theorem positions_rows (id : RecordId) (first : Nat) (events : List Event) :
    (rows id first events).map (·.position) = (List.range' first events.length).map fun (i : Nat) => (i : Int) := by
  unfold rows
  rw [List.map_map, ← List.zipIdx_map_snd first events, List.map_map]
  rfl

theorem texts_rows {id : RecordId} {first : Nat} {events : List Event} {row : Entry} (h : row ∈ rows id first events) :
    ∃ e, Event.ofPayload? row.payload = some e ∧ e.kind = row.kind ∧ e.time = row.time := by
  obtain ⟨⟨e, i⟩, -, rfl⟩ := List.mem_map.1 h
  exact ⟨e, Event.ofPayload?_payload e, rfl, rfl⟩

theorem filed_of_represents {s : Shelf} {ledger : List Record} (hr : t.Represents s) (hb : s.Balanced ledger)
    (ho : Ordered ledger) {h : Header} (hh : h ∈ t.headers) : t.Filed ledger h := by
  obtain ⟨k, hk, he⟩ := exists_stored_of_mem hr hh
  obtain ⟨hne, hversion, hevents⟩ := hb.kept _ _ k hk
  have hid : h.id = k.id := by
    rw [he]
    rfl
  have hcount : h.version = (of ledger h.session h.member).length := by
    rw [← hversion, he]
    rfl
  have hrows : t.entriesOf h.id = rows k.id 0 k.events := by rw [hid, entriesOf_stored hr hk]
  have hlength := length_le_log fun p (hp : p ∈ of ledger h.session h.member) => uncommitted_of_ordered ho hp
  have hpos := List.length_pos_iff.2 hne
  refine ⟨?_, fun row hrow => texts_rows (hrows ▸ hrow), hcount, ?_, ?_⟩
  · rw [hrows, positions_rows, length_rows, List.range_eq_range']
  · rw [hcount]
    exact Int.ofNat_le.2 hpos
  · rw [hcount, hrows, length_rows, hevents]
    exact Int.ofNat_le.2 hlength

end Tables

/-! ## In every reachable world -/

variable {R : Rules} {w w' : World}

/-- A step changes the store by an append, or leaves the logs in it alone. -/
theorem store_of_step (h : w.Step R w') :
    w'.store = w.store ∨ (∃ r, w'.store = (w.store.backend (.append r)).state) ∨ w.store.SameLogs w'.store := by
  have hask : ∀ (c : Call) (q : Query), (w.ask c q).store = w.store ∨
      ∃ r, (w.ask c q).store = (w.store.backend (.append r)).state := by
    intro c q
    rcases ask_cases w c q with ⟨r, rfl⟩ | hask
    · exact Or.inr ⟨r, rfl⟩
    · exact Or.inl (congrArg World.store hask)
  cases h with
  | fresh | found | listed | changed | begun | stamped | noted | left | ticked => exact Or.inl rfl
  | saved | turnedDown => exact Or.inr (Or.inl ⟨_, rfl⟩)
  | answered | refused =>
    rcases hask _ _ with hsame | happend
    · exact Or.inl hsame
    · exact Or.inr (Or.inl happend)
  | administered hst => exact Or.inr (Or.inr hst)

/-- Tables, if the store is kept in such, have one header for each log. -/
def Store.Apart : Store → Prop
  | .memory _ => True
  | .tables t => t.Apart

theorem apart_of_blank {st : Store} (h : st.Blank) : st.Apart := by
  cases st with
  | memory m => trivial
  | tables t =>
    obtain ⟨hheaders, -, -⟩ := h
    show t.headers.Pairwise _
    rw [hheaders]
    exact .nil

theorem apart_of_sameLogs {st st' : Store} (h : st.SameLogs st') (ha : st.Apart) : st'.Apart := by
  cases st' with
  | memory m' => trivial
  | tables t' =>
    cases st with
    | memory m => cases h
    | tables t =>
      obtain ⟨hheaders, -, -⟩ := h
      show t'.headers.Pairwise _
      rw [hheaders]
      exact ha

theorem apart_of_step (h : w.Step R w') (ha : w.store.Apart) : w'.store.Apart := by
  rcases store_of_step h with hsame | ⟨r, happend⟩ | hlogs
  · rw [hsame]
    exact ha
  · rw [happend]
    cases hst : w.store with
    | memory m => trivial
    | tables t =>
      rw [hst] at ha
      exact Tables.apart_append ha r
  · exact apart_of_sameLogs hlogs ha

theorem apart_of_reach (h : Reach R w) : w.store.Apart := by
  induction h with
  | start t hst => exact apart_of_blank hst
  | step _ hs ih => exact apart_of_step hs ih

/-- In every reachable world there is one header for each session and member, with a number of its own, and the
    rows of each log are filed as they should be. Whatever list of returned records the run has, tables find the
    last one of a session and a member, or none; and who appends nothing to a log gets back what is found. -/
theorem filed_of_reach (h : Reach R w) {t : Tables} (ht : w.store = .tables t) :
    t.Apart ∧ (t.headers.Pairwise fun a b => a.id ≠ b.id) ∧ (∀ header ∈ t.headers, t.Filed w.ledger header) ∧
      (∃ back, w.Returned R back) ∧
      (∀ back, w.Returned R back → ∀ session member,
        t.find session member = .ok (of back session member).getLast?) ∧
      ∀ r saved k, w.Offers r → r.uncommitted = [] → w.store.Answers (.append r) saved →
        t.find r.session r.member = .ok (some k) → saved = k := by
  obtain ⟨s, hi⟩ := inv_of_reach (kept_true R) h
  have hshown : t.Represents s := by
    have hs := hi.shown
    rw [ht] at hs
    exact hs
  have hapart : t.Apart := by
    have hstore := apart_of_reach h
    rw [ht] at hstore
    exact hstore
  refine ⟨hapart, ?_, fun header hh => ?_, exists_returned h, fun back hback session member => ?_,
    fun r saved k hoffers hu hsaved hfound => ?_⟩
  · refine hapart.imp_of_mem fun ha hb hne hid => hne ?_
    rw [Tables.eq_of_id hshown hi.balanced ha hb hid]
  · exact Tables.filed_of_represents hshown hi.balanced hi.ordered hh
  · have hfound := found_of_returned hback session member
    rw [ht] at hfound
    exact hfound
  · have hk := known_of_offers (kept_true R) hi hoffers
    have hfind : s.find r.session r.member = some k :=
      Except.ok.inj ((Tables.find_eq hshown r.session r.member).symm.trans hfound)
    rcases Store.append_cases hi.shown hi.balanced hi.ordered hk with
      ⟨-, hne, -⟩ | ⟨hv, -, happend⟩ | ⟨e, notes, happend⟩
    · exact absurd hu hne
    · unfold Store.Answers at hsaved
      rw [happend] at hsaved
      rw [← Except.ok.inj hsaved, eq_of_idle hi.balanced hk hv hu hfind]
    · unfold Store.Answers at hsaved
      rw [happend] at hsaved
      cases hsaved

/-- An hour before nine. -/
def dawn : Instant := ⟨⟨2025, 3, 1, 8, 0, 0, 0⟩, by decide⟩

/-- A check-in, and a check-out after the clock was set back, stored in one append. -/
theorem filed_of_reach_backwards : ∃ (w : World) (t : Tables) (saved : Record), Reach ⟨true, false⟩ w ∧
    w.store = .tables t ∧ t.headers = [⟨1, 7, 1, 1⟩] ∧ t.entries.map (·.time) = [morning, dawn] ∧
    t.Filed w.ledger ⟨1, 7, 1, 1⟩ ∧ t.find 7 1 = .ok (some saved) ∧
    saved.events = [.checkedIn morning, .checkedOut dawn] := by
  have hstart : World.Returned ⟨true, false⟩ ⟨.tables Twins.alone, morning, [], [], []⟩ [] :=
    .start morning ⟨rfl, rfl, rfl⟩
  have hfresh := World.Returned.rest hstart (.fresh 7 1 rfl) rfl
  have hin : Command.Transition (.new 7 1) [.time morning] ((Record.new 7 1).add (.checkedIn morning))
      (.checkIn 7 1) := ⟨morning, rfl, rfl⟩
  have hentered := World.Returned.rest hfresh (.changed rfl List.mem_cons_self hin (by simp)) rfl
  have hback := World.Returned.rest hentered (.ticked dawn (fun h => by cases h)) rfl
  have hout : Command.Transition ((Record.new 7 1).add (.checkedIn morning)) [.time dawn]
      (((Record.new 7 1).add (.checkedIn morning)).add (.checkedOut dawn)) (.checkOut 7 1) := ⟨dawn, rfl, rfl⟩
  have hleft := World.Returned.rest hback (.changed rfl List.mem_cons_self hout (by simp)) rfl
  have hsaved := World.Returned.posted hleft (.saved rfl List.mem_cons_self rfl) rfl rfl
  have hreach := reach_of_returned hsaved
  obtain ⟨-, -, hfiled, -, hfound, -⟩ := filed_of_reach hreach rfl
  exact ⟨_, _, _, hreach, rfl, rfl, rfl, hfiled _ List.mem_cons_self, hfound _ hsaved 7 1, rfl⟩

end Rollbook
