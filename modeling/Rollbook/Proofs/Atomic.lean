import Rollbook.Proofs.Rows
import Rollbook.Proofs.Run
/-
  Rollbook.Proofs.Atomic — a call does all of its work or nothing.

  There are many places at which a call may fail: its fields, the roles it asks for, a
  record that is missing or does not admit the transition, the append, any question
  whose method is down. Wherever it does, the store is the very same as before, the
  logs in it, the number that the next log gets, and who holds which role.

  A call that changes a record and comes back has written one event of its own kind,
  with the time that the clock shows, at the end of the log it names, and nothing else
  is different (`Command.Effect`). The calls that only ask change nothing at all. All of
  it holds in every reachable world and whatever is down (`atomic_of_reach`).
-/

namespace Rollbook

open Ledger Plan World

/-! ## Roles and sessions -/

/-- The same members, courses and sessions, and the same roles. -/
def Store.SameRolls : Store → Store → Prop
  | .memory m, .memory m' => m'.directory = m.directory
  | .tables t, .tables t' => t'.members = t.members ∧ t'.courses = t.courses ∧ t'.sessions = t.sessions ∧
      t'.courseRoles = t.courseRoles ∧ t'.systemRoles = t.systemRoles
  | _, _ => False

theorem Store.sameRolls_refl (st : Store) : st.SameRolls st := by
  cases st with
  | memory m => exact rfl
  | tables t => exact ⟨rfl, rfl, rfl, rfl, rfl⟩

theorem sameRolls_append (st : Store) (r : Record) : st.SameRolls (st.backend (.append r)).state := by
  cases st with
  | memory m => rfl
  | tables t =>
    show Store.SameRolls (.tables t) (.tables (t.append r).state)
    rcases Tables.state_append t r with hsame | ⟨-, ⟨-, -, hopened⟩ | ⟨header, -, -, hraised⟩⟩
    · rw [hsame]
      exact Store.sameRolls_refl (.tables t)
    · rw [hopened]
      exact ⟨rfl, rfl, rfl, rfl, rfl⟩
    · rw [hraised]
      exact ⟨rfl, rfl, rfl, rfl, rfl⟩

/-! ## What a call writes -/

/-- The event is one that the call writes at the time `t`. -/
def Command.Writes (t : Instant) (e : Event) : Command → Prop
  | .checkIn .. => e = .checkedIn t
  | .checkOut .. => e = .checkedOut t
  | .request actor _ _ wanted reason =>
    ∃ current grant, e = .requested ⟨t, current, wanted, Text.trim reason, actor, grant⟩
  | .approve actor .. => ∃ previous new reason, e = .corrected t previous new reason actor
  | .reject actor _ _ reason => e = .rejected t (Text.trim reason) actor

/-- A transition adds one event that the call writes, with a time that it has read off the clock. -/
theorem writes_of_transition {c : Command} {r r' : Record} {is : List Input} (h : c.Transition r is r') :
    ∃ t e, .time t ∈ is ∧ c.Writes t e ∧ r' = r.add e := by
  cases c with
  | checkIn session member =>
    obtain ⟨t, rfl, h⟩ := h
    exact ⟨t, _, List.mem_cons_self, rfl, (eq_add_of_checkIn h).2⟩
  | checkOut session member =>
    obtain ⟨t, rfl, h⟩ := h
    exact ⟨t, _, List.mem_cons_self, rfl, (eq_add_of_checkOut h).2⟩
  | request actor session member wanted reason =>
    obtain ⟨grant, is₁, t, rfl, -, -, -, -, hadd⟩ := Correction.yields_request h
    exact ⟨t, _, List.mem_append_right _ List.mem_cons_self, ⟨_, _, rfl⟩, hadd⟩
  | approve actor session member reason =>
    obtain ⟨pending, is₁, t, rfl, -, -, hadd⟩ := Correction.yields_approve h
    exact ⟨t, _, List.mem_append_right _ List.mem_cons_self, ⟨_, _, _, rfl⟩, hadd⟩
  | reject actor session member reason =>
    obtain ⟨pending, is₁, t, rfl, -, -, -, hadd⟩ := Correction.yields_reject h
    exact ⟨t, _, List.mem_append_right _ List.mem_cons_self, rfl, hadd⟩

/-- The call has taken the store from `st` to `st'` at the time `t` and come back with `saved`. -/
structure Command.Effect (c : Command) (t : Instant) (st st' : Store) (saved : Record) : Prop where
  grown : ∃ old e, st.Answers (.find c.session c.member) old ∧ c.Writes t e ∧ saved.events = logOf old ++ [e] ∧
    saved.version = versionOf old + 1 ∧ ∀ k, old = some k → saved.id = k.id
  numbered : ∃ id, saved.id = some id
  after : st'.Answers (.find c.session c.member) (some saved)
  others : ∀ session member found, (session, member) ≠ (c.session, c.member) →
    (st'.Answers (.find session member) found ↔ st.Answers (.find session member) found)
  rolls : st.SameRolls st'

variable {R : Rules} {P : List Event → Prop} {w : World} {s : Shelf}

/-- What a call comes to append, when all it has heard is so now: the record as it is stored, or a new one, and
    one event more. -/
theorem exists_event (hi : Inv R P w s) {c : Command} {is : List Input} {r : Record} (ha : Asks c.plan is (.append r))
    (hgiven : ∀ i ∈ is, i.Given Store.backend w.clock w.store) :
    Known w.ledger s r ∧ r.session = c.session ∧ r.member = c.member ∧
      ∃ e, c.Writes w.clock e ∧ r.uncommitted = [e] := by
  obtain ⟨found, is₁, is₂, rfl, -, ht⟩ := Command.asks_append ha
  have hfound : w.store.Answers (.find c.session c.member) found :=
    hgiven _ (List.mem_append_right _ List.mem_cons_self)
  obtain ⟨t, e, hread, hwrites, rfl⟩ := writes_of_transition ht
  obtain rfl : t = w.clock := hgiven _ (List.mem_append_right _ (List.mem_cons_of_mem _ hread))
  obtain ⟨hs, hwhole, hsession, hmember⟩ := Store.whole_of_find hfound
  have hk : Known w.ledger s (found.getD (.new c.session c.member)) := by
    cases found with
    | none => exact known_new w.ledger s c.session c.member
    | some k => exact (loaded_of_answers hi hfound).toKnown
  refine ⟨known_add hk e, hsession, hmember, e, hwrites, ?_⟩
  rw [Record.uncommitted_add hs, hwhole]
  rfl

/-- The append of a call fails and does nothing, or it does what the call is for. -/
theorem effect_of_append (hi : Inv R P w s) {c : Command} {is : List Input} {r : Record}
    (ha : Asks c.plan is (.append r)) (hgiven : ∀ i ∈ is, i.Given Store.backend w.clock w.store) :
    (∃ e, (w.store.backend (.append r)).result = .error e ∧ (w.store.backend (.append r)).state = w.store) ∨
      ∃ saved, (w.store.backend (.append r)).result = .ok saved ∧
        c.Effect w.clock w.store (w.store.backend (.append r)).state saved := by
  obtain ⟨hk, hsession, hmember, e, hwrites, hu⟩ := exists_event hi ha hgiven
  have hrolls := sameRolls_append w.store r
  rcases Store.append_cases hi.shown hi.balanced hi.ordered hk with
    ⟨hv, -, st', happend, hs⟩ | ⟨-, hidle, -⟩ | ⟨e, notes, happend⟩
  · have hext := extends_posted hi hk hv hs
    obtain ⟨old, hold, hlog, hversion, hid⟩ := hext.before
    have hafter := hext.after
    have hothers := hext.others
    rw [hsession, hmember] at hold hafter hothers
    rw [happend] at hrolls ⊢
    refine Or.inr ⟨_, rfl, ⟨old, e, hold, hwrites, ?_, ?_, hid⟩, hext.numbered, hafter, hothers, hrolls⟩
    · rw [hext.events, hlog, hu]
    · rw [hext.version, hversion]
  · rw [hu] at hidle
    cases hidle
  · rw [happend]
    exact Or.inl ⟨e, rfl, rfl⟩

/-- In every reachable world, and whatever is down: a call that fails leaves the store as it is, one that changes a
    record has its effect if it comes back, and one that only asks leaves the store as it is in any case. -/
theorem atomic_of_reach (h : Reach R w) (down : Outages) :
    (∀ c : Command, let reply := c.plan.run (Store.backend.withOutages down) w.clock w.store
      (∀ e, reply.result = .error e → reply.state = w.store) ∧
        ∀ saved, reply.result = .ok saved → c.Effect w.clock w.store reply.state saved) ∧
      ∀ i : Inquiry, (i.plan.run (Store.backend.withOutages down) w.clock w.store).state = w.store := by
  obtain ⟨s, hi⟩ := inv_of_reach (kept_true R) h
  have hcalm := calm_withOutages calm_store down
  refine ⟨fun c => ?_, fun i => run_quiet hcalm i.quiet⟩
  dsimp only
  rcases run_of_lands (t := w.clock) (s := w.store) hcalm c.lands with
    ⟨e, hresult, hstate⟩ | ⟨is, r, ha, hgiven, hresult, hstate⟩
  · rw [hresult]
    exact ⟨fun _ _ => hstate, fun saved hsaved => by cases hsaved⟩
  have hsound := effect_of_append hi ha fun i hmem => given_of_withOutages (hgiven i hmem)
  rw [hresult, hstate]
  rcases withOutages_cases Store.backend down (.append r) w.store with hsame | ⟨e, hdown⟩
  · rw [hsame]
    rcases hsound with ⟨e, hfailed, hkept⟩ | ⟨saved, hsaved, heffect⟩
    · rw [hfailed]
      exact ⟨fun _ _ => hkept, fun saved hsaved => by cases hsaved⟩
    · rw [hsaved]
      refine ⟨(fun e he => by cases he), fun saved' h => ?_⟩
      cases h
      exact heffect
  · rw [hdown]
    exact ⟨fun _ _ => rfl, fun saved hsaved => by cases hsaved⟩

/-- A request is filed behind a check-in. While appends are down it is not. -/
theorem atomic_of_reach_request : ∃ (w : World) (st' : Store) (saved : Record), Reach ⟨false, false⟩ w ∧
    (Command.request 2 7 1 .late "bus").Effect w.clock w.store st' saved ∧ saved.id = some 1 ∧ saved.version = 2 ∧
    ((Service.requestCorrection 2 7 1 .late "bus").run (Store.backend.withOutages [(.append, .full)]) w.clock
      w.store).state = w.store := by
  obtain ⟨w, hreach, hst, hclock⟩ := reach_run (reach_school ⟨false, false⟩) (.checkIn 7 1)
  obtain ⟨hup, -⟩ := atomic_of_reach hreach []
  obtain ⟨hdown, -⟩ := atomic_of_reach hreach [(.append, .full)]
  have hfiled := (hup (.request 2 7 1 .late "bus")).2 (.rehydrate 1 7 1 2
    [.checkedIn morning, .requested ⟨morning, .present, .late, "bus", 2, ⟨.course, 1⟩⟩]) (by rw [hst, hclock]; rfl)
  have hrefused := (hdown (.request 2 7 1 .late "bus")).1 (.database .full) (by rw [hst, hclock]; rfl)
  exact ⟨w, _, _, hreach, hfiled, rfl, rfl, hrefused⟩

end Rollbook
