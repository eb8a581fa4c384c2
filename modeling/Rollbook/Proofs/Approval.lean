import Rollbook.Proofs.Trail
/-
  Rollbook.Proofs.Approval — what an approval replaces.

  A request is turned down when it asks for the status that it finds (`sameStatus`), so
  each one that is filed asks for a change. Its approval comes later, though, and takes
  the status as it is by then. In between only check-ins and check-outs can have been
  added, and each of them leaves the status PRESENT (`foldStatus_present`): it takes an
  earlier correction back, and nobody can check out who has not checked in.

  So an approval replaces the status by another one, with one exception
  (`replacing_of_reach`): it grants PRESENT, and the member has come or gone since the
  request. Then the status is PRESENT already, and the approval changes nothing but that
  the request is resolved (`exists_unmoved_of_reach`).
-/

namespace Rollbook

open World

/-! ## The status behind a check-in or check-out -/

/-- Who is checked in counts as present, corrections aside. -/
theorem derived_of_open {log : List Event} (h : openReversed log.reverse = true) :
    (Standing.ofLog log).derived = .present := by
  induction log using List.reverseRecOn with
  | nil => cases h
  | append_singleton log e ih =>
    rw [open_concat] at h
    have hfold : Standing.ofLog (log ++ [e]) = (Standing.ofLog log).apply e := by
      simp [Standing.ofLog, List.foldl_append]
    rw [hfold]
    cases e with
    | checkedIn t => rfl
    | checkedOut t => cases h
    | requested q => exact ih h
    | corrected t previous new reason reviewer => exact ih h
    | rejected t reason reviewer => exact ih h

theorem foldStatus_present {log : List Event} {e : Event} (hl : Lawful (log ++ [e])) (he : e.presence.isSome = true) :
    foldStatus (log ++ [e]) = .present := by
  obtain ⟨-, hfollows⟩ := lawful_concat.1 hl
  rw [foldStatus_concat]
  cases e with
  | checkedIn t => rfl
  | checkedOut t =>
    -- the override is gone, and what it hid is the check-in that the check-out follows
    exact derived_of_open hfollows
  | requested q => cases he
  | corrected t previous new reason reviewer => cases he
  | rejected t reason reviewer => cases he

/-! ## From a request to its approval -/

/-- Behind a pending request the member has only come and gone. -/
theorem exists_since_of_pending {log : List Event} {q : Request} (h : Correction.ofLog log = .pending q) :
    ∃ earlier since, log = earlier ++ .requested q :: since ∧ ∀ e ∈ since, e.presence.isSome = true := by
  induction log using List.reverseRecOn with
  | nil => cases h
  | append_singleton log e ih =>
    rw [correction_concat] at h
    have hlater : e.presence.isSome = true → Correction.ofLog log = .pending q →
        ∃ earlier since, log ++ [e] = earlier ++ .requested q :: since ∧ ∀ e ∈ since, e.presence.isSome = true := by
      intro he hlog
      obtain ⟨earlier, since, rfl, hsince⟩ := ih hlog
      refine ⟨earlier, since ++ [e], by simp, fun e' he' => ?_⟩
      rcases List.mem_append.1 he' with he' | he'
      · exact hsince e' he'
      · rw [List.mem_singleton.1 he']
        exact he
    cases e with
    | checkedIn t => exact hlater rfl h
    | checkedOut t => exact hlater rfl h
    | requested q' =>
      cases h
      exact ⟨log, [], rfl, fun e he => by cases he⟩
    | corrected t previous new reason reviewer => cases h
    | rejected t reason reviewer => cases h

/-- Each approval of the log resolves a request for another status than the request has found, and it replaces the
    status by another one, unless it grants PRESENT to a member who has come or gone since the request. -/
def Replacing (log : List Event) : Prop :=
  ∀ before t previous new reason reviewer after, log = before ++ .corrected t previous new reason reviewer :: after →
    ∃ earlier q since, before = earlier ++ .requested q :: since ∧ (∀ e ∈ since, e.presence.isSome = true) ∧
      q.current = foldStatus earlier ∧ q.wanted ≠ q.current ∧ previous = foldStatus before ∧ new = q.wanted ∧
      (new = previous ↔ new = .present ∧ since ≠ [])

theorem replacing_of_lawful {log : List Event} (hl : Lawful log) : Replacing log := by
  intro before t previous new reason reviewer after hlog
  obtain ⟨q, hpending, hprevious, hnew⟩ := hl before _ after hlog
  obtain ⟨earlier, since, rfl, hsince⟩ := exists_since_of_pending hpending
  have hbefore : Lawful (earlier ++ .requested q :: since) := lawful_of_prefix hl ⟨_, hlog.symm⟩
  obtain ⟨-, hcurrent, hwanted, -⟩ := hbefore earlier (.requested q) since rfl
  refine ⟨earlier, q, since, rfl, hsince, hcurrent, hwanted, hprevious, hnew, ?_⟩
  rcases List.eq_nil_or_concat since with rfl | ⟨since, e, rfl⟩
  · -- nothing came between: the approval finds the status that the request has found
    have hsame : previous = q.current := by
      rw [hprevious, hcurrent, foldStatus_concat]
      rfl
    rw [hnew, hsame]
    simp [hwanted]
  · have hmoved : previous = .present := by
      rw [List.concat_eq_append, ← List.cons_append, ← List.append_assoc] at hprevious hbefore
      rw [hprevious]
      exact foldStatus_present hbefore (hsince e (by simp))
    rw [hmoved]
    simp

/-- Every stored log can be read, and its approvals replace the status, but for those of PRESENT that come too
    late. -/
theorem replacing_of_reach {R : Rules} {w : World} (h : Reach R w) (session : SessionId) (member : MemberId) :
    ∃ found, w.store.Answers (.find session member) found ∧ ∀ r, found = some r → Replacing r.events := by
  obtain ⟨s, hi⟩ := inv_of_reach (kept_lawful R) h
  have hfind := Store.find_eq hi.shown session member
  refine ⟨s.find session member, hfind, ?_⟩
  intro r hr
  rw [hr] at hfind
  exact replacing_of_lawful (kept_of_reach (kept_lawful R) h hfind)

/-! ## An approval that comes too late -/

/-- A member who was late is to count as present after all, and goes before that is approved. -/
def belated : List Event :=
  [.checkedIn morning, .requested ⟨morning, .present, .late, "bus", 2, ⟨.course, 1⟩⟩,
    .corrected morning .present .late "bus" 3, .requested ⟨morning, .late, .present, "on time", 2, ⟨.course, 1⟩⟩,
    .checkedOut morning, .corrected morning .present .present "on time" 3]

theorem exists_reach_belated : ∃ w, Reach ⟨false, false⟩ w ∧
    w.store.Answers (.find 7 1) (some (.rehydrate 1 7 1 6 belated)) := by
  obtain ⟨w, hreach, hst⟩ := reach_after (reach_school ⟨false, false⟩)
    [.checkIn 7 1, .request 2 7 1 .late "bus", .approve 3 7 1 none, .request 2 7 1 .present "on time", .checkOut 7 1,
      .approve 3 7 1 none]
  refine ⟨w, hreach, ?_⟩
  rw [hst]
  rfl

/-- The first approval of the log replaces PRESENT by LATE, the second one PRESENT by itself. -/
theorem replacing_of_reach_belated : ∃ (w : World) (r : Record), Reach ⟨false, false⟩ w ∧
    w.store.Answers (.find 7 1) (some r) ∧ r.events = belated ∧ Replacing r.events := by
  obtain ⟨w, hreach, hlog⟩ := exists_reach_belated
  obtain ⟨found, hfound, hreplacing⟩ := replacing_of_reach hreach 7 1
  have hsame := Except.ok.inj (hfound.symm.trans hlog)
  exact ⟨w, _, hreach, hlog, rfl, hreplacing _ hsame⟩

/-- Calls of the service alone lead to an approval that puts the status there that it finds. -/
theorem exists_unmoved_of_reach : ∃ (w : World) (r : Record), Reach ⟨false, false⟩ w ∧
    w.store.Answers (.find 7 1) (some r) ∧
    ∃ t previous new reason reviewer, .corrected t previous new reason reviewer ∈ r.events ∧ new = previous := by
  obtain ⟨w, hreach, hlog⟩ := exists_reach_belated
  refine ⟨w, _, hreach, hlog, morning, .present, .present, "on time", 3, ?_, rfl⟩
  show Event.corrected morning .present .present "on time" 3 ∈ belated
  simp [belated]

end Rollbook
