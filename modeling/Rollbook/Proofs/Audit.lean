import Rollbook.Proofs.World
/-
  Rollbook.Proofs.Audit — what a stored log says of the calls that wrote it.

  No log is ever read as a whole before something is added to it, and what has been read
  of it may be stale when the addition is made. All the same:

  - without a desk every stored log is well formed, with at most one request open;
  - every decision in a stored log was made by one call, which had found the log as it
    stands before the decision and had its reviewer checked for the very request that the
    decision resolves.

  Both come from the same fact. A posting of a call adds one event to what the call has
  loaded, and an append lets nobody through whose log is not the stored one.
-/

namespace Rollbook

open Ledger Plan World

variable {R : Rules} {P : List Event → Prop} {w : World} {s : Shelf}

/-! ## The shape of stored logs -/

theorem kept_lawful (R : Rules) : Kept R Lawful := by
  refine ⟨lawful_nil, fun c is r r' hs hl ht _ => ?_⟩
  obtain ⟨e, rfl, hf⟩ := follows_of_change hs (Command.change_of_transition ht)
  exact lawful_concat.2 ⟨hl, hf⟩

/-- The log has no event yet, or a check-in was the first. -/
def Begun (log : List Event) : Prop := log = [] ∨ ∃ t rest, log = .checkedIn t :: rest

theorem kept_begun (hR : R.desk = false) : Kept R Begun := by
  refine ⟨Or.inl rfl, fun c is r r' hs hb ht hfirst => Or.inr ?_⟩
  rcases hb with hnil | ⟨t, rest, hlog⟩
  · obtain ⟨session, member, rfl⟩ := hfirst hR hnil
    obtain ⟨t, -, hmove⟩ := ht
    obtain ⟨-, rfl⟩ := eq_add_of_checkIn hmove
    exact ⟨t, [], by show r.events ++ [_] = _; rw [hnil]; rfl⟩
  · obtain ⟨e, rfl, -⟩ := follows_of_change hs (Command.change_of_transition ht)
    exact ⟨t, rest ++ [e], by show r.events ++ [e] = _; rw [hlog]; rfl⟩

/-- Every stored log can be read and is well formed: it begins with a check-in, its check-ins and
    check-outs take turns, so do its requests and what resolves them, and the last request is pending
    exactly when requests outnumber resolutions. -/
theorem wellFormed_of_reach (hR : R.desk = false) (h : Reach R w) (session : SessionId) (member : MemberId) :
    ∃ found, w.store.Answers (.find session member) found ∧ ∀ r, found = some r → WellFormed r.events := by
  obtain ⟨s, hi⟩ := inv_of_reach (kept_lawful R) h
  have hfind := Store.find_eq hi.shown session member
  refine ⟨s.find session member, hfind, fun r hr => ?_⟩
  rw [hr] at hfind
  refine wellFormed_of_lawful (kept_of_reach (kept_lawful R) h hfind) ?_
  rcases kept_of_reach (kept_begun hR) h hfind with hnil | hbegins
  · exact absurd hnil (loaded_of_answers hi hfind).nonempty
  · exact hbegins

/-- A check-in and a request of somebody else. -/
theorem wellFormed_of_reach_pending : ∃ (w : World) (r : Record), Reach ⟨false, false⟩ w ∧
    w.store.Answers (.find 7 1) (some r) ∧ r.events.length = 2 ∧ WellFormed r.events := by
  obtain ⟨w, hreach, hst⟩ := reach_after (reach_school ⟨false, false⟩)
    [.checkIn 7 1, .request 2 7 1 .late "bus"]
  obtain ⟨found, hfound, hwell⟩ := wellFormed_of_reach rfl hreach 7 1
  have hlog : w.store.Answers (.find 7 1) (some (.rehydrate 1 7 1 2
      [.checkedIn morning, .requested ⟨morning, .present, .late, "bus", 2, ⟨.course, 1⟩⟩])) := by
    rw [hst]
    rfl
  have hsame := Except.ok.inj (hfound.symm.trans hlog)
  exact ⟨w, _, hreach, hlog, rfl, hwell _ hsame⟩

/-! ## The postings of calls -/

/-- What a call came to append is what it had loaded and one event more. -/
structure Call.Adds (c : Call) (r₀ : Record) (is : List Input) (e : Event) (r : Record) : Prop where
  sound : r₀.Sound
  stored : r₀.uncommitted = []
  session : r₀.session = c.command.session
  member : r₀.member = c.command.member
  moved : c.command.Transition r₀ is r
  added : r = r₀.add e
  found : (∃ session member, c.command = .checkIn session member) ∨
    ∃ before, c.inputs = before ++ .answer (.find c.command.session c.command.member) (some r₀) :: is

theorem exists_adds {c : Call} {r : Record} (hc : ∀ x ∈ c.heard, x.Holds)
    (ha : Asks c.command.plan c.inputs (.append r)) : ∃ r₀ is e, c.Adds r₀ is e r := by
  obtain ⟨found, is₁, is₂, his, hnone, ht⟩ := Command.asks_append ha
  have hmem : Input.answer (.find c.command.session c.command.member) found ∈ c.inputs := by
    rw [his]
    exact List.mem_append_right _ List.mem_cons_self
  obtain ⟨x, hx, hin⟩ := List.mem_map.1 hmem
  have hholds := hc x hx
  obtain ⟨input, st, t⟩ := x
  cases hin
  cases hholds with
  | answer hans =>
    obtain ⟨hs, hstored, hsession, hmember⟩ := Store.whole_of_find hans
    obtain ⟨e, he, -⟩ := follows_of_change hs (Command.change_of_transition ht)
    refine ⟨_, is₂, e, hs, hstored, hsession, hmember, ht, he, ?_⟩
    cases found with
    | none => exact Or.inl (hnone rfl)
    | some r₀ => exact Or.inr ⟨is₁, his⟩

theorem uncommitted_of_adds {c : Call} {r₀ r : Record} {is : List Input} {e : Event} (h : c.Adds r₀ is e r) :
    r.uncommitted = [e] := by
  rw [h.added, Record.uncommitted_add h.sound, h.stored]
  rfl

/-- Without a desk the postings are one event each. -/
theorem single_of_posted (hR : R.desk = false) (hi : Inv R P w s) {r : Record} (hr : r ∈ w.ledger) :
    ∃ e, r.uncommitted = [e] := by
  obtain ⟨p, hp, rfl⟩ := List.mem_map.1 hr
  have hsound := hi.postings p hp
  obtain ⟨c, hc⟩ := hsound.called hR
  obtain ⟨hasks, hholds⟩ := hsound.asks c hc
  obtain ⟨r₀, is, e, hadds⟩ := exists_adds hholds hasks
  exact ⟨e, uncommitted_of_adds hadds⟩

/-- Where postings are one event each, the log of the first of them is as long as they are many. -/
theorem log_take {posts : List Record} (h : ∀ p ∈ posts, ∃ e, p.uncommitted = [e]) (n : Nat) :
    log (posts.take n) = (log posts).take n := by
  induction posts generalizing n with
  | nil => simp [Ledger.log]
  | cons p posts ih =>
    obtain ⟨e, he⟩ := h p List.mem_cons_self
    have hrest := ih fun q hq => h q (List.mem_cons_of_mem p hq)
    cases n with
    | zero => rfl
    | succ n =>
      show p.uncommitted ++ log (posts.take n) = (p.uncommitted ++ log posts).take (n + 1)
      rw [he, hrest]
      rfl

theorem length_log {posts : List Record} (h : ∀ p ∈ posts, ∃ e, p.uncommitted = [e]) :
    (log posts).length = posts.length := by
  induction posts with
  | nil => rfl
  | cons p posts ih =>
    obtain ⟨e, he⟩ := h p List.mem_cons_self
    have hrest := ih fun q hq => h q (List.mem_cons_of_mem p hq)
    show (p.uncommitted ++ log posts).length = posts.length + 1
    rw [he, List.length_append, hrest, List.length_singleton]
    omega

/-- Every event of a stored log was posted by a call that had found the log as it stands before it. -/
theorem exists_posting (hR : R.desk = false) (hi : Inv R P w s) {session : SessionId} {member : MemberId}
    {before after : List Event} {e : Event} (hlog : log (of w.ledger session member) = before ++ e :: after) :
    ∃ p ∈ w.posted, p.record.session = session ∧ p.record.member = member ∧ p.record.events = before ++ [e] ∧
      ∃ c r₀ is, p.call = some c ∧ (∀ x ∈ c.heard, x.Holds) ∧ c.Adds r₀ is e p.record ∧ r₀.events = before := by
  have hsingle : ∀ p ∈ of w.ledger session member, ∃ e, p.uncommitted = [e] := fun p hp =>
    single_of_posted hR hi (List.mem_filter.1 hp).1
  have hlt : before.length < (of w.ledger session member).length := by
    rw [← length_log hsingle, hlog, List.length_append, List.length_cons]
    omega
  have hget := List.getElem?_eq_getElem hlt
  obtain ⟨-, -, hevents⟩ := hi.ordered _ _ _ _ hget
  have hprefix : (before ++ e :: after).take (before.length + 1) = before ++ [e] := by
    rw [List.take_length_add_append]
    rfl
  rw [log_take hsingle, hlog, hprefix] at hevents
  have hmem := List.getElem_mem hlt
  obtain ⟨hin, hkey⟩ := List.mem_filter.1 hmem
  obtain ⟨p, hp, hrecord⟩ := List.mem_map.1 hin
  obtain ⟨hsession, hmember⟩ := of_decide_eq_true hkey
  rw [← hrecord] at hevents hsession hmember
  have hsound := hi.postings p hp
  obtain ⟨c, hc⟩ := hsound.called hR
  obtain ⟨hasks, hholds⟩ := hsound.asks c hc
  obtain ⟨r₀, is, e', hadds⟩ := exists_adds hholds hasks
  have hsplit : before ++ [e] = r₀.events ++ [e'] := by
    rw [← hevents, hadds.added]
    rfl
  obtain ⟨hbefore, he⟩ := List.append_inj' hsplit rfl
  cases he
  exact ⟨p, hp, hsession, hmember, hevents, c, r₀, is, hc, hholds, hadds, hbefore.symm⟩

/-! ## Decisions -/

/-- Who has made a decision. -/
def Event.reviewer? : Event → Option MemberId
  | .corrected _ _ _ _ reviewer | .rejected _ _ reviewer => some reviewer
  | _ => none

/-- The same roles are held, and the sessions stand where they stood. -/
def Store.SameDirectory (st st' : Store) : Prop :=
  ∀ q : Query, q.IsLookup → (st'.backend q).result = (st.backend q).result

/-- The reviewer manages the course of the session, or did not file the request and holds SUPERVISOR or
    ADMIN. -/
def Store.Empowered (st : Store) (reviewer requester : MemberId) (session : SessionId) : Prop :=
  (∃ course, st.Answers (.sessionScope session) (some (.course course)) ∧
      st.Answers (.courseRole reviewer course) (some .manager)) ∨
    (reviewer ≠ requester ∧ ∃ held : List SystemRole, st.Answers (.systemRoles reviewer) held ∧
      (.supervisor ∈ held ∨ .admin ∈ held))

/-- The same, as it was heard at the steps of a check. -/
def EmpoweredDuring (check : List Heard) (reviewer requester : MemberId) (session : SessionId) : Prop :=
  (∃ course, (∃ x ∈ check, x.store.Answers (.sessionScope session) (some (.course course))) ∧
      ∃ x ∈ check, x.store.Answers (.courseRole reviewer course) (some .manager)) ∨
    (reviewer ≠ requester ∧ ∃ held : List SystemRole,
      (∃ x ∈ check, x.store.Answers (.systemRoles reviewer) held) ∧ (.supervisor ∈ held ∨ .admin ∈ held))

/-- A check during which nothing changed in the directory. -/
theorem empowered_of_during {check : List Heard} {reviewer requester : MemberId} {session : SessionId}
    (h : EmpoweredDuring check reviewer requester session) {st : Store}
    (hsame : ∀ x ∈ check, x.store.SameDirectory st) : st.Empowered reviewer requester session := by
  rcases h with ⟨course, ⟨x, hx, hscope⟩, y, hy, hrole⟩ | ⟨hne, held, ⟨x, hx, hroles⟩, hin⟩
  · exact Or.inl ⟨course, (hsame x hx (.sessionScope session) trivial).trans hscope,
      (hsame y hy (.courseRole reviewer course) trivial).trans hrole⟩
  · exact Or.inr ⟨hne, held, (hsame x hx (.systemRoles reviewer) trivial).trans hroles, hin⟩

/-- The call is a review of what it has found pending: it loaded the log `before`, and had its reviewer
    checked for the request `q` in it. -/
structure Call.Reviews (c : Call) (reviewer : MemberId) (session : SessionId) (member : MemberId)
    (before : List Event) (q : Request) (check : List Heard) : Prop where
  command : (∃ reason, c.command = .approve reviewer session member reason) ∨
    ∃ reason, c.command = .reject reviewer session member reason
  loaded : ∃ earlier x later r, c.heard = earlier ++ x :: (check ++ later) ∧
    x.input = .answer (.find session member) (some r) ∧ r.events = before
  pending : Correction.ofLog before = .pending q
  judged : ∃ a, Yields (ReviewAuthority.judge reviewer q.requester q.grant session) (check.map Heard.input) a ∧
    a.allowed = true
  holds : ∀ x ∈ check, x.Holds

theorem add_inj {r : Record} {e e' : Event} (h : r.add e = r.add e') : e = e' := by
  have hevents : r.events ++ [e] = r.events ++ [e'] := congrArg Record.events h
  exact List.cons.inj (List.append_inj' hevents rfl).2 |>.1

/-- An event that is a decision was added by an approval or a rejection of its reviewer. -/
theorem review_of_adds {c : Call} {r₀ r : Record} {is : List Input} {e : Event} {reviewer : MemberId}
    (h : c.Adds r₀ is e r) (he : e.reviewer? = some reviewer) :
    ((∃ reason, c.command = .approve reviewer c.command.session c.command.member reason) ∨
        ∃ reason, c.command = .reject reviewer c.command.session c.command.member reason) ∧
      ∃ q looks t, is = looks ++ [.time t] ∧ r₀.correction = .pending q ∧
        Yields (Correction.checkReview r₀ reviewer q) looks () := by
  have hmoved := h.moved
  have hadded := h.added
  obtain ⟨command, heard, rest⟩ := c
  cases command with
  | checkIn session member =>
    obtain ⟨t, -, hmove⟩ := hmoved
    obtain ⟨-, rfl⟩ := eq_add_of_checkIn hmove
    rw [← add_inj hadded] at he
    cases he
  | checkOut session member =>
    obtain ⟨t, -, hmove⟩ := hmoved
    obtain ⟨-, rfl⟩ := eq_add_of_checkOut hmove
    rw [← add_inj hadded] at he
    cases he
  | request actor session member wanted reason =>
    obtain ⟨grant, is₁, t, -, -, -, -, -, rfl⟩ := Correction.yields_request hmoved
    rw [← add_inj hadded] at he
    cases he
  | approve actor session member reason =>
    obtain ⟨q, looks, t, his, hpending, hcheck, rfl⟩ := Correction.yields_approve hmoved
    rw [← add_inj hadded] at he
    cases he
    exact ⟨Or.inl ⟨reason, rfl⟩, q, looks, t, his, hpending, hcheck⟩
  | reject actor session member reason =>
    obtain ⟨q, looks, t, his, hpending, hcheck, -, rfl⟩ := Correction.yields_reject hmoved
    rw [← add_inj hadded] at he
    cases he
    exact ⟨Or.inr ⟨reason, rfl⟩, q, looks, t, his, hpending, hcheck⟩

theorem heard_of_inputs {c : Call} {earlier looks later : List Input} {i : Input}
    (h : c.inputs = earlier ++ i :: (looks ++ later)) :
    ∃ before x check after, c.heard = before ++ x :: (check ++ after) ∧ x.input = i ∧
      check.map Heard.input = looks := by
  obtain ⟨before, rest, hheard, -, hrest⟩ := List.map_eq_append_iff.1 h
  obtain ⟨x, tail, rfl, hx, htail⟩ := List.map_eq_cons_iff.1 hrest
  obtain ⟨check, after, rfl, hlooks, -⟩ := List.map_eq_append_iff.1 htail
  exact ⟨before, x, check, after, hheard, hx, hlooks⟩

/-- A call that came to append a decision is a review of the log that it had loaded. -/
theorem reviews_of_adds {c : Call} {r₀ r : Record} {is : List Input} {e : Event} {reviewer : MemberId}
    (hholds : ∀ x ∈ c.heard, x.Holds) (h : c.Adds r₀ is e r) (he : e.reviewer? = some reviewer) :
    ∃ q check, c.Reviews reviewer r₀.session r₀.member r₀.events q check := by
  obtain ⟨hcommand, q, looks, t, his, hopen, hcheck⟩ := review_of_adds h he
  rw [← h.session, ← h.member] at hcommand
  have hfound : ∃ earlier,
      c.inputs = earlier ++ .answer (.find r₀.session r₀.member) (some r₀) :: (looks ++ [.time t]) := by
    rcases h.found with ⟨session, member, hin⟩ | ⟨earlier, hin⟩
    · rcases hcommand with ⟨reason, hreview⟩ | ⟨reason, hreview⟩
      · cases hin.symm.trans hreview
      · cases hin.symm.trans hreview
    · rw [← h.session, ← h.member, his] at hin
      exact ⟨earlier, hin⟩
  obtain ⟨earlier, hinputs⟩ := hfound
  obtain ⟨before, x, check, after, hheard, hx, hlooks⟩ := heard_of_inputs hinputs
  obtain ⟨a, hjudge, hallowed⟩ := Correction.yields_checkReview hcheck
  refine ⟨q, check, hcommand, ⟨before, x, after, r₀, hheard, hx, rfl⟩, hopen, ⟨a, ?_, hallowed⟩, fun y hy => ?_⟩
  · rw [hlooks]
    exact hjudge
  · refine hholds y ?_
    rw [hheard]
    exact List.mem_append_right _ (List.mem_cons_of_mem x (List.mem_append_left after hy))

/-- A request that is pending in a lawful log was filed with a rank of at least 1. -/
theorem one_le_rank_of_pending {log : List Event} (hl : Lawful log) {q : Request}
    (h : Correction.ofLog log = .pending q) : 1 ≤ q.grant.rank := by
  have hmem := List.mem_of_getLast? (last_request_of_pending h)
  obtain ⟨e, he, heq⟩ := List.mem_filterMap.1 hmem
  obtain ⟨before, after, hsplit⟩ := List.append_of_mem he
  cases e with
  | requested q' =>
    cases heq
    exact (hl before _ after hsplit).2.2.2
  | checkedIn | checkedOut | corrected | rejected => cases heq

/-- What a check has heard was so when it was heard. -/
theorem during_of_judged {check : List Heard} (hholds : ∀ x ∈ check, x.Holds) {reviewer : MemberId} {q : Request}
    {session : SessionId} {a : ReviewAuthority}
    (hy : Yields (ReviewAuthority.judge reviewer q.requester q.grant session) (check.map Heard.input) a)
    (ha : a.allowed = true) (hrank : 1 ≤ q.grant.rank) : EmpoweredDuring check reviewer q.requester session := by
  have hanswer : ∀ (q : Query) (a : q.Answer), .answer q a ∈ check.map Heard.input →
      ∃ x ∈ check, x.store.Answers q a := by
    intro q a hin
    obtain ⟨x, hx, hinput⟩ := List.mem_map.1 hin
    have hh := hholds x hx
    obtain ⟨input, st, t⟩ := x
    cases hinput
    cases hh with
    | answer hans => exact ⟨_, hx, hans⟩
  rcases ReviewAuthority.empowered_of_allowed hy ha hrank with ⟨course, hscope, hrole⟩ | ⟨hne, held, hroles, hin⟩
  · exact Or.inl ⟨course, hanswer _ _ hscope, hanswer _ _ hrole⟩
  · exact Or.inr ⟨hne, held, hanswer _ _ hroles, hin⟩

/-- Every decision in a stored log was posted by one review. It had found the log as it stands before the
    decision, and its reviewer was checked for the request that the decision resolves, the last one before
    it. At the steps of that check the reviewer was MANAGER of the course that the session belonged to, or
    had not filed the request and held SUPERVISOR or ADMIN; and if the directory did not change from one of
    these steps to the other, one of the two was so in it. -/
theorem decision_of_reach (hR : R.desk = false) (h : Reach R w) {session : SessionId} {member : MemberId} {r : Record}
    (hr : w.store.Answers (.find session member) (some r)) {before after : List Event} {e : Event}
    {reviewer : MemberId} (hlog : r.events = before ++ e :: after) (he : e.reviewer? = some reviewer) :
    ∃ q c check,
      (∃ p ∈ w.posted, p.call = some c ∧ p.record.session = session ∧ p.record.member = member ∧
        p.record.events = before ++ [e]) ∧
      c.Reviews reviewer session member before q check ∧
      (before.filterMap Event.request?).getLast? = some q ∧
      EmpoweredDuring check reviewer q.requester session ∧
      ∀ st : Store, (∀ x ∈ check, x.store.SameDirectory st) → st.Empowered reviewer q.requester session := by
  have hlawful : Lawful before := by
    refine lawful_of_prefix (kept_of_reach (kept_lawful R) h hr) ?_
    rw [hlog]
    exact List.prefix_append before (e :: after)
  obtain ⟨s, hi⟩ := inv_of_reach (kept_lawful R) h
  have hstored : log (of w.ledger session member) = before ++ e :: after := by
    obtain ⟨k, hk, rfl⟩ := Option.map_eq_some_iff.1 ((Store.answers_find hi.shown).1 hr)
    rw [← hlog]
    exact (hi.balanced.kept _ _ k hk).2.2.symm
  obtain ⟨p, hp, hsession, hmember, hevents, c, r₀, is, hc, hholds, hadds, hr₀⟩ := exists_posting hR hi hstored
  have hreviews := reviews_of_adds hholds hadds he
  have hkey : r₀.session = session ∧ r₀.member = member := by
    rw [← hsession, ← hmember, hadds.added]
    exact ⟨rfl, rfl⟩
  rw [hkey.1, hkey.2, hr₀] at hreviews
  obtain ⟨q, check, hreview⟩ := hreviews
  obtain ⟨a, hjudged, hallowed⟩ := hreview.judged
  have hduring := during_of_judged hreview.holds hjudged hallowed (one_le_rank_of_pending hlawful hreview.pending)
  exact ⟨q, c, check, ⟨p, hp, hc, hsession, hmember, hevents⟩, hreview, last_request_of_pending hreview.pending,
    hduring, fun st hsame => empowered_of_during hduring hsame⟩

/-- The manager of the course approves what a mentor has filed for a mentee. -/
theorem decision_of_reach_approved : ∃ (w : World) (r : Record) (before : List Event) (e : Event),
    Reach ⟨false, false⟩ w ∧ w.store.Answers (.find 7 1) (some r) ∧ r.events = before ++ [e] ∧
      e.reviewer? = some 3 ∧
      ∃ (q : Request) (c : Call) (check : List Heard), c.Reviews 3 7 1 before q check ∧
        EmpoweredDuring check 3 q.requester 7 := by
  obtain ⟨w, hreach, hst⟩ := reach_after (reach_school ⟨false, false⟩)
    [.checkIn 7 1, .request 2 7 1 .late "bus", .approve 3 7 1 none]
  have hlog : w.store.Answers (.find 7 1) (some (.rehydrate 1 7 1 3
      ([.checkedIn morning, .requested ⟨morning, .present, .late, "bus", 2, ⟨.course, 1⟩⟩] ++
        [.corrected morning .present .late "bus" 3]))) := by
    rw [hst]
    rfl
  obtain ⟨q, c, check, -, hreviews, -, hduring, -⟩ := decision_of_reach rfl hreach hlog rfl rfl
  exact ⟨w, _, _, _, hreach, hlog, rfl, rfl, q, c, check, hreviews, hduring⟩

end Rollbook
