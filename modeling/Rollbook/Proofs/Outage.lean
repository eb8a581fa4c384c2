import Rollbook.Proofs.Run
/-
  Rollbook.Proofs.Outage — a method that is down decides nothing.

  Much is read out of an answer that is empty: who has no role lacks the capability, a
  session that is not known has no members, a record that is not there counts as absent.
  A question that nobody answers must not be taken for one of these.

  Two runs of a call stand side by side here, from the same state, one of them while
  methods are down. They come to the same, or the second one ends with the error of a
  method that the call came to ask, and has done nothing by then (`Unswayed`). For an
  append is the last thing that a call asks (`Closing`), so whatever fails fails before
  anything was done. It holds of every call, in every state of either backend, reachable
  or not (`unswayed_by_outages`).
-/

namespace Rollbook

open Plan

variable {σ α : Type}

/-! ## Methods that are down -/

theorem withOutages_of_up {b : Backend σ} {down : Outages} {q : Query} (h : down.lookup q.method = none) (s : σ) :
    b.withOutages down q s = b q s := by
  unfold Backend.withOutages
  rw [h]

theorem withOutages_of_down {b : Backend σ} {down : Outages} {q : Query} {e : DbError}
    (h : down.lookup q.method = some e) (s : σ) : b.withOutages down q s = ⟨.error (.database e), s, []⟩ := by
  unfold Backend.withOutages
  rw [h]

namespace Plan

variable {b : Backend σ} {t : Instant} {s : σ}

/-! ## Plans that end behind an append -/

/-- Whatever it is answered, the plan asks nothing. -/
def Mute (p : Plan α) : Prop := ∀ is q, ¬ Asks p is q

/-- The plan asks nothing behind an append. -/
def Closing (p : Plan α) : Prop :=
  ∀ is r (next : (Query.append r).Answer → Plan α), Leads p is (.ask (.append r) next) → ∀ saved, Mute (next saved)

theorem closing_of_quiet {p : Plan α} (h : Quiet p) : Closing p := fun is r next hl => absurd ⟨next, hl⟩ (h is r)

theorem mute_of_settles {p : Plan α} {a : α} (h : Settles a p) : Mute p := by
  induction h with
  | done =>
    rintro is q ⟨next, hl⟩
    cases hl
  | note _ ih =>
    rintro is q ⟨next, hl⟩
    cases hl with
    | note hl => exact ih is q ⟨next, hl⟩

theorem closing_of_lands {p : Plan Record} (h : Lands p) : Closing p := by
  induction h with
  | failed e =>
    intro is r next hl
    cases hl
  | append hnext =>
    intro is r' next' hl saved
    cases hl with
    | here => exact mute_of_settles (hnext saved)
    | @ask _ _ a is _ hl =>
      exact absurd ⟨next', hl⟩ (mute_of_settles (hnext a) is (.append r'))
  | ask hq _ ih =>
    intro is r next' hl
    cases hl with
    | here => exact absurd rfl (hq r)
    | @ask _ _ a is _ hl => exact ih a is r next' hl
  | clock _ ih =>
    intro is r next' hl
    cases hl with
    | @clock _ t is _ hl => exact ih t is r next' hl
  | note _ ih =>
    intro is r next' hl
    cases hl with
    | note hl => exact ih is r next' hl

/-- Who answers makes no difference to a plan that asks nothing. -/
theorem run_mute {p : Plan α} (h : Mute p) (b b' : Backend σ) : p.run b t s = p.run b' t s := by
  induction p with
  | done r => rfl
  | ask q next ih => exact absurd ⟨next, .here _⟩ (h [] q)
  | clock next ih => exact ih t fun is q ⟨after, hl⟩ => h _ q ⟨after, .clock hl⟩
  | note n next ih =>
    have hrest := ih fun is q ⟨after, hl⟩ => h _ q ⟨after, .note hl⟩
    simp only [run, hrest]

/-! ## Two runs side by side -/

/-- The plan comes to the same while methods are down, or it fails with the error of a method that it came
    to ask, and has done nothing. -/
theorem run_withOutages (hb : b.Calm) (down : Outages) {p : Plan α} (h : Closing p) :
    p.run (b.withOutages down) t s = p.run b t s ∨
      ∃ is q e, Asks p is q ∧ down.lookup q.method = some e ∧
        (p.run (b.withOutages down) t s).result = .error (.database e) ∧
        (p.run (b.withOutages down) t s).state = s := by
  induction p generalizing s with
  | done r => exact Or.inl rfl
  | ask q next ih =>
    cases hdown : down.lookup q.method with
    | some e =>
      have hfails := withOutages_of_down (b := b) hdown s
      refine Or.inr ⟨[], q, e, ⟨next, .here _⟩, hdown, ?_, ?_⟩
      · simp only [run, hfails]
      · simp only [run, hfails]
    | none =>
      have hup := withOutages_of_up (b := b) hdown s
      cases hq : b q s with
      | mk result s' notes =>
        rw [hq] at hup
        cases result with
        | error e =>
          left
          simp only [run, hup, hq]
        | ok a =>
          by_cases happend : ∃ r, q = .append r
          · -- behind an append nobody is asked any more
            obtain ⟨r, rfl⟩ := happend
            have hmute : Mute (next a) := h [] r next (.here _) a
            left
            simp only [run, hup, hq, run_mute hmute (b.withOutages down) b]
          · have hstate := hb q s fun r he => happend ⟨r, he⟩
            rw [hq] at hstate
            obtain rfl : s' = s := hstate
            have hclosing : Closing (next a) := fun is r next' hl => h _ r next' (.ask hl)
            rcases ih a (s := s') hclosing with hsame | ⟨is, q', e, ⟨after, hl⟩, hlookup, hresult, hkept⟩
            · left
              simp only [run, hup, hq, hsame]
            · refine Or.inr ⟨_, q', e, ⟨after, .ask hl⟩, hlookup, ?_, ?_⟩
              · simp only [run, hup, hresult]
              · simp only [run, hup, hkept]
  | clock next ih =>
    have hclosing : Closing (next t) := fun is r next' hl => h _ r next' (.clock hl)
    rcases ih t (s := s) hclosing with hsame | ⟨is, q, e, ⟨after, hl⟩, hend⟩
    · exact Or.inl hsame
    · exact Or.inr ⟨_, q, e, ⟨after, .clock hl⟩, hend⟩
  | note n next ih =>
    have hclosing : Closing next := fun is r next' hl => h _ r next' (.note hl)
    rcases ih (s := s) hclosing with hsame | ⟨is, q, e, ⟨after, hl⟩, hend⟩
    · left
      simp only [run, hsame]
    · exact Or.inr ⟨_, q, e, ⟨after, .note hl⟩, hend⟩

/-- What the plan comes to in a state does not depend on what is down, but for failing with a storage error:
    the error of a method that is down and that the plan came to ask. -/
structure Unswayed (p : Plan α) (b : Backend σ) (down : Outages) (t : Instant) (s : σ) : Prop where
  /-- The answer, the state and the lines logged are the same, or the plan has failed and left everything as
      it is. -/
  outcome : p.run (b.withOutages down) t s = p.run b t s ∨
    ∃ is q e, Asks p is q ∧ down.lookup q.method = some e ∧ (Failure.database e).kind = .storage ∧
      (p.run (b.withOutages down) t s).result = .error (.database e) ∧ (p.run (b.withOutages down) t s).state = s
  /-- So nothing that would fail succeeds, nothing that is there is passed over. -/
  answered : ∀ a, (p.run (b.withOutages down) t s).result = .ok a →
    (p.run b t s).result = .ok a ∧ (p.run b t s).state = (p.run (b.withOutages down) t s).state
  /-- And a refusal for any other reason would have been one in any case. -/
  refused : ∀ e, (p.run (b.withOutages down) t s).result = .error e → e.kind ≠ .storage →
    (p.run b t s).result = .error e

theorem unswayed_of_closing (hb : b.Calm) (down : Outages) {p : Plan α} (h : Closing p) :
    Unswayed p b down t s := by
  rcases run_withOutages (t := t) (s := s) hb down h with hsame | ⟨is, q, e, hasks, hlookup, hresult, hstate⟩
  · refine ⟨Or.inl hsame, fun a ha => ?_, fun e he _ => ?_⟩
    · rw [hsame] at ha ⊢
      exact ⟨ha, rfl⟩
    · rw [hsame] at he
      exact he
  · refine ⟨Or.inr ⟨is, q, e, hasks, hlookup, rfl, hresult, hstate⟩, fun a ha => ?_, fun e' he hkind => ?_⟩
    · rw [hresult] at ha
      cases ha
    · rw [hresult] at he
      cases he
      exact absurd rfl hkind

end Plan

/-! ## The calls of the service -/

/-- Whatever is down, in whatever state and at whatever time: a call comes to what it would come to, or it
    fails with the error of a method that is down and changes nothing. -/
theorem unswayed_by_outages (st : Store) (t : Instant) (down : Outages) :
    (∀ c : Command, Unswayed c.plan Store.backend down t st) ∧
      ∀ i : Inquiry, Unswayed i.plan Store.backend down t st :=
  ⟨fun c => unswayed_of_closing calm_store down (closing_of_lands c.lands),
    fun i => unswayed_of_closing calm_store down (closing_of_quiet i.quiet)⟩

/-- A session of a course with one mentee, who has not come yet. -/
def tutorial : Store := .memory ⟨⟨[], [((1, 5), .mentee)], [(7, .course 5)]⟩, .empty⟩

/-- While the roles in the course cannot be looked up the member is not let in, but is not taken for a stranger either;
    when they can be, the check-in is stored. -/
example (t : Instant) :
    (Command.checkIn 7 1).plan.run (Store.backend.withOutages [(.courseRole, .cannotRead)]) t tutorial =
      ⟨.error (.database .cannotRead), tutorial, []⟩ ∧
    ((Command.checkIn 7 1).plan.run Store.backend t tutorial).result =
      .ok (((Record.new 7 1).add (.checkedIn t)).stored 1) := ⟨rfl, rfl⟩

end Rollbook
