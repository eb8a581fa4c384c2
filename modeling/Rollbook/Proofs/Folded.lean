import Rollbook.Proofs.Observed
/-
  Rollbook.Proofs.Folded — the status of a log without the fold.

  The status is folded over a log from its beginning, in two halves: what the check-ins
  say, and what an approved correction has put over it. The log may be any list of
  events, also one that no calls have led to.

  Both halves can be read off the log instead. Something is put over the status exactly
  when the log overrides it (`Overrides`): there is an approval, it is the last one, and
  the member has neither come nor gone since. What is under it says no more than whether
  there was a check-in at all. That gives the status in closed form (`Told`), and LATE
  and LEFT_EARLY are never the status unless an approval has just put them there.

  A record does not fold its log anew. It keeps the status up with each event, and a
  store that loads the record folds it from the events that it finds. All three come to
  the same for every record that there can be (`told_of_built`).
-/

namespace Rollbook

/-! ## The last approval -/

/-- The event is neither a check-in nor a check-out, nor an approval. -/
def Event.Spares : Event → Prop
  | .requested _ | .rejected .. => True
  | _ => False

/-- The last approval of the log has granted `new`, and nobody has come or gone since. -/
def Overrides (log : List Event) (new : Status) : Prop :=
  ∃ before t previous reason reviewer since,
    log = before ++ .corrected t previous new reason reviewer :: since ∧ ∀ e ∈ since, e.Spares

theorem not_overrides_nil (new : Status) : ¬ Overrides [] new := by
  rintro ⟨before, t, previous, reason, reviewer, since, h, -⟩
  cases before <;> cases h

theorem overrides_concat {log : List Event} {e : Event} {new : Status} :
    Overrides (log ++ [e]) new ↔
      (∃ t previous reason reviewer, e = .corrected t previous new reason reviewer) ∨ (e.Spares ∧ Overrides log new) := by
  constructor
  · rintro ⟨before, t, previous, reason, reviewer, since, h, hsince⟩
    rcases List.eq_nil_or_concat since with rfl | ⟨since, last, rfl⟩
    · obtain ⟨-, he⟩ := List.append_inj' h rfl
      exact Or.inl ⟨t, previous, reason, reviewer, List.head_eq_of_cons_eq he⟩
    · have hsplit : log ++ [e] = (before ++ .corrected t previous new reason reviewer :: since) ++ [last] := by
        simpa using h
      obtain ⟨hlog, he⟩ := List.append_inj' hsplit rfl
      obtain rfl := List.head_eq_of_cons_eq he
      exact Or.inr ⟨hsince e (by simp), before, t, previous, reason, reviewer, since, hlog,
        fun e' he' => hsince e' (by simp [he'])⟩
  · rintro (⟨t, previous, reason, reviewer, rfl⟩ | ⟨he, before, t, previous, reason, reviewer, since, rfl, hsince⟩)
    · exact ⟨log, t, previous, reason, reviewer, [], rfl, by simp⟩
    · refine ⟨before, t, previous, reason, reviewer, since ++ [e], by simp, fun e' he' => ?_⟩
      rcases List.mem_append.1 he' with he' | he'
      · exact hsince e' he'
      · obtain rfl := List.mem_singleton.1 he'
        exact he

/-! ## The two halves of the fold -/

theorem ofLog_concat (log : List Event) (e : Event) : Standing.ofLog (log ++ [e]) = (Standing.ofLog log).apply e := by
  simp [Standing.ofLog]

theorem override_ofLog (log : List Event) (new : Status) : (Standing.ofLog log).override = some new ↔ Overrides log new := by
  induction log using List.reverseRecOn with
  | nil => simp [Standing.ofLog, Standing.initial, not_overrides_nil]
  | append_singleton log e ih =>
    rw [ofLog_concat, overrides_concat, ← ih]
    cases e <;> simp [Standing.apply, Event.Spares]

/-- Somebody has checked in. -/
def Arrives (log : List Event) : Prop := ∃ t, .checkedIn t ∈ log

theorem derived_ofLog (log : List Event) :
    (Arrives log → (Standing.ofLog log).derived = .present) ∧ (¬ Arrives log → (Standing.ofLog log).derived = .absent) := by
  induction log using List.reverseRecOn with
  | nil => simp [Arrives, Standing.ofLog, Standing.initial]
  | append_singleton log e ih =>
    have harrives : Arrives (log ++ [e]) ↔ Arrives log ∨ ∃ t, e = .checkedIn t := by
      simp only [Arrives, List.mem_append, List.mem_singleton, exists_or, eq_comm]
    rw [ofLog_concat, harrives]
    cases e with
    | checkedIn t => simp [Standing.apply]
    | checkedOut t => simpa [Standing.apply] using ih
    | requested q => simpa [Standing.apply] using ih
    | corrected t previous new reason reviewer => simpa [Standing.apply] using ih
    | rejected t reason reviewer => simpa [Standing.apply] using ih

/-! ## The status -/

/-- The status of the log as it can be told from its events. -/
structure Told (log : List Event) : Prop where
  /-- What the last approval has granted, if nobody has come or gone since. -/
  granted : ∀ new, Overrides log new → foldStatus log = new
  /-- Without such an approval a check-in makes the status PRESENT, once and for all. -/
  arrived : (∀ new, ¬ Overrides log new) → Arrives log → foldStatus log = .present
  absent : (∀ new, ¬ Overrides log new) → ¬ Arrives log → foldStatus log = .absent
  exceptional : foldStatus log = .late ∨ foldStatus log = .leftEarly → Overrides log (foldStatus log)

theorem foldStatus_of_overrides {log : List Event} {new : Status} (h : Overrides log new) : foldStatus log = new := by
  have hover := (override_ofLog log new).2 h
  simp [foldStatus, Standing.status, hover]

theorem foldStatus_of_not_overrides {log : List Event} (h : ∀ new, ¬ Overrides log new) :
    foldStatus log = (Standing.ofLog log).derived := by
  have hover : (Standing.ofLog log).override = none :=
    Option.eq_none_iff_forall_ne_some.2 fun new hnew => h new ((override_ofLog log new).1 hnew)
  simp [foldStatus, Standing.status, hover]

theorem told (log : List Event) : Told log := by
  obtain ⟨hpresent, habsent⟩ := derived_ofLog log
  refine ⟨fun new => foldStatus_of_overrides, fun h ha => ?_, fun h ha => ?_, fun hstatus => ?_⟩
  · rw [foldStatus_of_not_overrides h, hpresent ha]
  · rw [foldStatus_of_not_overrides h, habsent ha]
  · by_cases h : ∃ new, Overrides log new
    · obtain ⟨new, hnew⟩ := h
      rwa [foldStatus_of_overrides hnew]
    · -- without an approval the status is one of the other two
      have hderived := foldStatus_of_not_overrides (not_exists.1 h)
      by_cases ha : Arrives log
      · simp [hderived, hpresent ha] at hstatus
      · simp [hderived, habsent ha] at hstatus

/-- The status of every log can be told from its events, and for every record that there can be the status that it
    has kept up, the status of its log and the status after it is loaded with this log are the same. -/
theorem told_of_built : (∀ log, Told log) ∧
    ∀ r : Record, r.Built → r.status = r.foldedStatus ∧
      ∀ id session member version, (Record.rehydrate id session member version r.events).status = r.status := by
  refine ⟨told, fun r h => ?_⟩
  have hkept : r.status = foldStatus r.events := Record.status_eq_foldStatus (sound_of_built h)
  exact ⟨hkept, fun id session member version => hkept.symm⟩

/-- A record that is loaded with a log no calls have led to: LATE is approved behind a check-out, a request is still
    turned down, and one more check-in takes the correction back. -/
theorem told_of_built_odd : ∃ (log : List Event) (r : Record), Overrides log .late ∧ foldStatus log = .late ∧
    r.Built ∧ r.events = log ++ [.checkedIn morning] ∧ (∀ new, ¬ Overrides r.events new) ∧ r.status = .present ∧
    (Record.rehydrate 9 7 1 3 r.events).status = .present := by
  let log : List Event := [.checkedOut morning, .corrected morning .absent .late "bus" 3, .rejected morning "no" 3]
  let r := ((Record.rehydrate 4 7 1 2 log).add (.checkedIn morning)).stored 4
  obtain ⟨hall, hbuilt⟩ := told_of_built
  have hlate : Overrides log .late := ⟨[.checkedOut morning], morning, .absent, "bus", 3, [.rejected morning "no" 3], rfl,
    by simp [Event.Spares]⟩
  have hr : r.Built := .stored 4 (.add _ (.rehydrate 4 7 1 2 log))
  have hnone : ∀ new, ¬ Overrides r.events new := fun new h => by
    have h : Overrides (log ++ [.checkedIn morning]) new := h
    simp [overrides_concat, Event.Spares] at h
  have hin : Arrives r.events := ⟨morning, by simp [r, Record.stored, Record.add]⟩
  obtain ⟨hkept, hloaded⟩ := hbuilt r hr
  have hpresent : r.status = .present := by
    rw [hkept]
    exact (hall r.events).arrived hnone hin
  exact ⟨log, r, hlate, (hall log).granted .late hlate, hr, rfl, hnone, hpresent, (hloaded 9 7 1 3).trans hpresent⟩

end Rollbook
