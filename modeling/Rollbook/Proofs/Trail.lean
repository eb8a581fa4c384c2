import Rollbook.Proofs.Audit
/-
  Rollbook.Proofs.Trail — what the events of a stored log say of the status.

  A request writes down the status that it finds and the one that it asks for, an
  approval the status that it replaces and the one it puts there. Both take the status
  from a record that is held, where it is kept up with the log and not folded anew, and
  the record may be stale; between a request and its approval the member may come and go.

  Still a stored log agrees with itself (`Consistent`). Every status it names is the one
  that the events before it fold to, an approval grants what the last request before it
  has asked for, and the status is as granted right behind it; a rejection changes none
  (`consistent_of_reach`).
-/

namespace Rollbook

open World

/-! ## Consistent logs -/

/-- What the events of a log say of the status is what the events before them fold to. -/
structure Consistent (log : List Event) : Prop where
  requested : ∀ i q, log[i]? = some (.requested q) → q.current = foldStatus (log.take i) ∧ q.wanted ≠ q.current
  /-- An approval replaces the status before it by what the last request before it has asked for. -/
  corrected : ∀ i t previous new reason reviewer, log[i]? = some (.corrected t previous new reason reviewer) →
    previous = foldStatus (log.take i) ∧
      (∃ q, ((log.take i).filterMap Event.request?).getLast? = some q ∧ new = q.wanted) ∧
      foldStatus (log.take (i + 1)) = new
  rejected : ∀ i t reason reviewer, log[i]? = some (.rejected t reason reviewer) →
    foldStatus (log.take (i + 1)) = foldStatus (log.take i)

theorem foldStatus_concat (log : List Event) (e : Event) :
    foldStatus (log ++ [e]) = ((Standing.ofLog log).apply e).status := by
  unfold foldStatus Standing.ofLog
  rw [List.foldl_append]
  rfl

/-- The event at a place, with the events before it, is as far as the log goes up to there. -/
theorem take_succ_of_getElem? {log : List Event} {i : Nat} {e : Event} (h : log[i]? = some e) :
    log.take (i + 1) = log.take i ++ [e] := by
  rw [List.take_add_one, h]
  rfl

theorem follows_of_getElem? {log : List Event} (hl : Lawful log) {i : Nat} {e : Event} (h : log[i]? = some e) :
    e.Follows (log.take i) := by
  have hprefix : log.take i ++ [e] <+: log := take_succ_of_getElem? h ▸ List.take_prefix (i + 1) log
  have hlawful := lawful_of_prefix hl hprefix
  exact (lawful_concat.1 hlawful).2

theorem consistent_of_lawful {log : List Event} (hl : Lawful log) : Consistent log := by
  refine ⟨fun i q h => ?_, fun i t previous new reason reviewer h => ?_, fun i t reason reviewer h => ?_⟩
  · obtain ⟨-, hcurrent, hwanted, -⟩ := follows_of_getElem? hl h
    exact ⟨hcurrent, hwanted⟩
  · obtain ⟨q, hpending, hprevious, hnew⟩ := follows_of_getElem? hl h
    refine ⟨hprevious, ⟨q, last_request_of_pending hpending, hnew⟩, ?_⟩
    rw [take_succ_of_getElem? h, foldStatus_concat]
    rfl
  · rw [take_succ_of_getElem? h, foldStatus_concat]
    rfl

/-- Every stored log can be read and agrees with itself. -/
theorem consistent_of_reach {R : Rules} {w : World} (h : Reach R w) (session : SessionId) (member : MemberId) :
    ∃ found, w.store.Answers (.find session member) found ∧ ∀ r, found = some r → Consistent r.events := by
  obtain ⟨s, hi⟩ := inv_of_reach (kept_lawful R) h
  have hfind := Store.find_eq hi.shown session member
  refine ⟨s.find session member, hfind, fun r hr => ?_⟩
  rw [hr] at hfind
  exact consistent_of_lawful (kept_of_reach (kept_lawful R) h hfind)

/-- A correction is asked for, the member leaves and comes back, and it is approved; the next one is turned
    down. -/
theorem consistent_of_reach_returned : ∃ (w : World) (r : Record), Reach ⟨false, false⟩ w ∧
    w.store.Answers (.find 7 1) (some r) ∧
    r.events.map Event.kind = ["checked_in", "correction_requested", "checked_out", "checked_in", "status_corrected",
      "correction_requested", "correction_rejected"] ∧
    r.status = .late ∧ Consistent r.events := by
  obtain ⟨w, hreach, hst⟩ := reach_after (reach_school ⟨false, false⟩)
    [.checkIn 7 1, .request 2 7 1 .late "bus", .checkOut 7 1, .checkIn 7 1, .approve 3 7 1 none,
      .request 2 7 1 .absent "gone", .reject 3 7 1 "no"]
  obtain ⟨found, hfound, hconsistent⟩ := consistent_of_reach hreach 7 1
  have hlog : w.store.Answers (.find 7 1) (some (.rehydrate 1 7 1 7
      [.checkedIn morning, .requested ⟨morning, .present, .late, "bus", 2, ⟨.course, 1⟩⟩, .checkedOut morning,
        .checkedIn morning, .corrected morning .present .late "bus" 3,
        .requested ⟨morning, .late, .absent, "gone", 2, ⟨.course, 1⟩⟩, .rejected morning "no" 3])) := by
    rw [hst]
    rfl
  have hsame := Except.ok.inj (hfound.symm.trans hlog)
  exact ⟨w, _, hreach, hlog, rfl, rfl, hconsistent _ hsame⟩

end Rollbook
