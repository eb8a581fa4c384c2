import Rollbook.Proofs.Service
import Rollbook.Proofs.Store
/-
  Rollbook.Proofs.Run — what a plan does when nobody comes between.

  Only an append changes a state (`Backend.Calm`). So a plan that never comes to one
  leaves the state as it is (`run_quiet`), whatever it is answered and wherever it ends.

  The calls that change a record come to one append at most, and nothing can fail behind
  it: they fail before, or end with what came back (`Lands`). Running such a call does
  nothing, or what its append does (`run_of_lands`), and all that it has heard on the way
  it has heard of the state it began in.

  Where it does not matter how a plan fails, it is run at a `Moment`. What a composed plan
  answers there is what its parts answer one after the other (`Moment.answer_bind`), all
  at the same moment if they do not append.
-/

namespace Rollbook

open Plan

variable {σ α β : Type}

/-! ## Backends -/

/-- The backend changes nothing but by appends. -/
def Backend.Calm (b : Backend σ) : Prop := ∀ q s, (∀ r, q ≠ .append r) → (b q s).state = s

theorem calm_store : Store.backend.Calm := fun _ st h => Store.state_eq h st

/-- A method that is down fails and does nothing, and any other is as it is. -/
theorem withOutages_cases (b : Backend σ) (down : Outages) (q : Query) (s : σ) :
    b.withOutages down q s = b q s ∨ ∃ e, b.withOutages down q s = ⟨.error e, s, []⟩ := by
  unfold Backend.withOutages
  cases down.lookup q.method with
  | none => exact Or.inl rfl
  | some e => exact Or.inr ⟨_, rfl⟩

theorem calm_withOutages {b : Backend σ} (hb : b.Calm) (down : Outages) : (b.withOutages down).Calm := by
  intro q s hq
  rcases withOutages_cases b down q s with hsame | ⟨e, hdown⟩
  · rw [hsame]
    exact hb q s hq
  · rw [hdown]

/-- What is answered although methods are down is answered without that too. -/
theorem eq_of_withOutages {b : Backend σ} {down : Outages} {q : Query} {s : σ} {a : q.Answer}
    (h : (b.withOutages down q s).result = .ok a) : b.withOutages down q s = b q s := by
  rcases withOutages_cases b down q s with hsame | ⟨e, hdown⟩
  · exact hsame
  · rw [hdown] at h
    cases h

/-- The backend gives this in the state `s`, and the clock shows `t`. -/
def Input.Given (b : Backend σ) (t : Instant) (s : σ) : Input → Prop
  | .answer q a => (b q s).result = .ok a
  | .time t' => t' = t

theorem given_of_withOutages {b : Backend σ} {down : Outages} {t : Instant} {s : σ} {i : Input}
    (h : i.Given (b.withOutages down) t s) : i.Given b t s := by
  cases i with
  | answer q a =>
    have h : (b.withOutages down q s).result = .ok a := h
    show (b q s).result = .ok a
    rw [← eq_of_withOutages h]
    exact h
  | time t' => exact h

namespace Plan

variable {b : Backend σ} {t : Instant} {s : σ}

/-! ## Composed plans -/

/-- A composed plan runs its first part and, where that has an answer, the second part behind it. -/
theorem run_bind (p : Plan α) (f : α → Plan β) : (p >>= f).run b t s =
    match p.run b t s with
    | ⟨.error e, s', notes⟩ => ⟨.error e, s', notes⟩
    | ⟨.ok a, s', notes⟩ => { (f a).run b t s' with notes := notes ++ ((f a).run b t s').notes } := by
  induction p generalizing s with
  | done r => cases r <;> rfl
  | ask q next ih =>
    show (Plan.ask q fun x => next x >>= f).run b t s = _
    rw [run, run]
    cases hq : b q s with
    | mk result s₁ notes =>
      cases result with
      | error e => rfl
      | ok x =>
        dsimp only
        rw [ih x]
        cases hx : (next x).run b t s₁ with
        | mk result s₂ notes₂ =>
          cases result with
          | error e => rfl
          | ok a => simp only [List.append_assoc]
  | clock next ih => exact ih t
  | note n next ih =>
    show (Plan.note n (next >>= f)).run b t s = _
    rw [run, run, ih]
    cases hn : next.run b t s with
    | mk result s₁ notes => cases result <;> rfl

theorem run_bind_of_ok {p : Plan α} {a : α} {s' : σ} (h : p.run b t s = ⟨.ok a, s', []⟩) (f : α → Plan β) :
    (p >>= f).run b t s = (f a).run b t s' := by
  rw [run_bind, h]
  rfl

theorem run_query (q : Query) : (query q).run b t s = b q s := by
  show (Plan.ask q fun a => .done (.ok a)).run b t s = _
  rw [run]
  cases b q s with
  | mk result s' notes =>
    cases result with
    | error e => rfl
    | ok a =>
      simp only [run, List.append_nil]

/-- An answer that a run comes to is one that the plan can yield. -/
theorem yields_of_run {p : Plan α} {a : α} (h : (p.run b t s).result = .ok a) : ∃ is, Yields p is a := by
  induction p generalizing s with
  | done r =>
    obtain rfl : r = .ok a := h
    exact ⟨[], .here _⟩
  | ask q next ih =>
    rw [run] at h
    cases hq : b q s with
    | mk result s' notes =>
      rw [hq] at h
      cases result with
      | error e => cases h
      | ok x =>
        obtain ⟨is, hy⟩ := ih x h
        exact ⟨_, .ask hy⟩
  | clock next ih =>
    obtain ⟨is, hy⟩ := ih t h
    exact ⟨_, .clock hy⟩
  | note n next ih =>
    obtain ⟨is, hy⟩ := ih h
    exact ⟨is, .note hy⟩

/-! ## Plans without an append -/

/-- Whatever it is answered, the plan does not come to append. -/
def Quiet (p : Plan α) : Prop := ∀ is r, ¬ Asks p is (.append r)

theorem quiet_of_lookups {p : Plan α} (h : ∀ {is q}, Asks p is q → q.IsLookup) : Quiet p :=
  fun _ _ ha => h ha

theorem quiet_bind {p : Plan α} {f : α → Plan β} (hp : Quiet p) (hf : ∀ a, Quiet (f a)) : Quiet (p >>= f) := by
  intro is r h
  rcases asks_bind.1 h with h | ⟨a, is₁, is₂, -, -, h⟩
  · exact hp _ r h
  · exact hf a _ r h

theorem quiet_query {q : Query} (h : ∀ r, q ≠ .append r) : Quiet (query q) := by
  intro is r ha
  exact h r (asks_query.1 ha).2.symm

/-- A plan without an append leaves the state as it is. -/
theorem run_quiet (hb : b.Calm) {p : Plan α} (hp : Quiet p) : (p.run b t s).state = s := by
  induction p generalizing s with
  | done r => rfl
  | ask q next ih =>
    have hstate := hb q s fun r he => hp [] r (he ▸ ⟨next, .here _⟩)
    rw [run]
    cases hq : b q s with
    | mk result s' notes =>
      rw [hq] at hstate
      obtain rfl : s' = s := hstate
      cases result with
      | error e => rfl
      | ok a => exact ih a fun is r ⟨after, hl⟩ => hp _ r ⟨after, .ask hl⟩
  | clock next ih => exact ih t fun is r ⟨after, hl⟩ => hp _ r ⟨after, .clock hl⟩
  | note n next ih => exact ih fun is r ⟨after, hl⟩ => hp _ r ⟨after, .note hl⟩

/-! ## Plans that end in an append -/

/-- The plan has nothing left to do but to note things and to answer `a`. -/
inductive Settles (a : α) : Plan α → Prop
  | done : Settles a (.done (.ok a))
  | note {n : Notice} {p : Plan α} : Settles a p → Settles a (.note n p)

/-- The plan fails, or it appends once and answers what came back. -/
inductive Lands : Plan Record → Prop
  | failed (e : Failure) : Lands (.done (.error e))
  | append {r : Record} {next : (Query.append r).Answer → Plan Record} :
      (∀ saved : Record, Settles saved (next saved)) → Lands (.ask (.append r) next)
  | ask {q : Query} {next : q.Answer → Plan Record} : (∀ r, q ≠ .append r) → (∀ a, Lands (next a)) →
      Lands (.ask q next)
  | clock {next : Instant → Plan Record} : (∀ t, Lands (next t)) → Lands (.clock next)
  | note {n : Notice} {p : Plan Record} : Lands p → Lands (.note n p)

theorem lands_bind {p : Plan α} {f : α → Plan Record} (hp : Quiet p) (hf : ∀ a, Lands (f a)) : Lands (p >>= f) := by
  induction p with
  | done r =>
    cases r with
    | ok a => exact hf a
    | error e => exact .failed e
  | ask q next ih =>
    refine .ask (fun r he => hp [] r (he ▸ ⟨next, .here _⟩)) fun a => ?_
    exact ih a fun is r ⟨after, hl⟩ => hp _ r ⟨after, .ask hl⟩
  | clock next ih => exact .clock fun t => ih t fun is r ⟨after, hl⟩ => hp _ r ⟨after, .clock hl⟩
  | note n next ih => exact .note (ih fun is r ⟨after, hl⟩ => hp _ r ⟨after, .note hl⟩)

theorem lands_append (r : Record) : Lands (Plan.append r) := .append fun _ => .done

theorem run_settles {p : Plan α} {a : α} (h : Settles a p) :
    (p.run b t s).result = .ok a ∧ (p.run b t s).state = s := by
  induction h with
  | done => exact ⟨rfl, rfl⟩
  | note _ ih => exact ih

/-- Running such a plan fails and does nothing, or it does and answers what its append does and answers. -/
theorem run_of_lands (hb : b.Calm) {p : Plan Record} (h : Lands p) :
    (∃ e, (p.run b t s).result = .error e ∧ (p.run b t s).state = s) ∨
      ∃ is r, Asks p is (.append r) ∧ (∀ i ∈ is, i.Given b t s) ∧
        (p.run b t s).result = (b (.append r) s).result ∧ (p.run b t s).state = (b (.append r) s).state := by
  induction h with
  | failed e => exact Or.inl ⟨e, rfl, rfl⟩
  | @append r next hnext =>
    refine Or.inr ⟨[], r, ⟨next, .here _⟩, (fun i hi => by cases hi), ?_⟩
    rw [run]
    cases b (.append r) s with
    | mk result s' notes =>
      cases result with
      | error e => exact ⟨rfl, rfl⟩
      | ok saved => exact run_settles (hnext saved)
  | @ask q next hq _ ih =>
    have hstate := hb q s hq
    rw [run]
    cases hr : b q s with
    | mk result s' notes =>
      rw [hr] at hstate
      obtain rfl : s' = s := hstate
      cases result with
      | error e => exact Or.inl ⟨e, rfl, rfl⟩
      | ok a =>
        rcases ih a with h | ⟨is, r, ⟨after, hl⟩, hgiven, hsame⟩
        · exact Or.inl h
        · have ha : (Input.answer q a).Given b t s' := by
            show (b q s').result = .ok a
            rw [hr]
          exact Or.inr ⟨.answer q a :: is, r, ⟨after, .ask hl⟩, List.forall_mem_cons.2 ⟨ha, hgiven⟩, hsame⟩
  | @clock next _ ih =>
    rcases ih t with h | ⟨is, r, ⟨after, hl⟩, hgiven, hsame⟩
    · exact Or.inl h
    · exact Or.inr ⟨.time t :: is, r, ⟨after, .clock hl⟩, List.forall_mem_cons.2 ⟨rfl, hgiven⟩, hsame⟩
  | note _ ih =>
    rcases ih with h | ⟨is, r, ⟨after, hl⟩, hgiven, hsame⟩
    · exact Or.inl h
    · exact Or.inr ⟨is, r, ⟨after, .note hl⟩, hgiven, hsame⟩

end Plan

/-! ## Answers -/

/-- Whoever answers, in a state and while the clock shows a time. -/
structure Moment (σ : Type) where
  backend : Backend σ
  time : Instant
  state : σ

def Store.moment (st : Store) (t : Instant) : Moment Store := ⟨Store.backend, t, st⟩

namespace Moment

variable (w : Moment σ)

/-- What a plan answers when it is run now. -/
def answer (p : Plan α) : Option α := (p.run w.backend w.time w.state).result.toOption

/-- The moment behind a plan. -/
def behind (p : Plan α) : Moment σ := { w with state := (p.run w.backend w.time w.state).state }

theorem answer_bind (p : Plan α) (f : α → Plan β) :
    w.answer (p >>= f) = (w.answer p).bind fun a => (w.behind p).answer (f a) := by
  unfold answer behind
  rw [run_bind]
  cases p.run w.backend w.time w.state with
  | mk result s' notes => cases result <;> rfl

theorem answer_eq_some {p : Plan α} {a : α} :
    w.answer p = some a ↔ (p.run w.backend w.time w.state).result = .ok a := by
  unfold answer
  cases (p.run w.backend w.time w.state).result with
  | error e => exact ⟨(fun h => nomatch h), (fun h => nomatch h)⟩
  | ok found => exact ⟨fun h => congrArg Except.ok (Option.some.inj h), fun h => congrArg some (Except.ok.inj h)⟩

variable {w}

/-- Behind a plan that does not append all is as it was. -/
theorem behind_quiet (hb : w.backend.Calm) {p : Plan α} (hp : Quiet p) : w.behind p = w := by
  unfold behind
  rw [run_quiet hb hp]

theorem answer_bind_quiet (hb : w.backend.Calm) {p : Plan α} (hp : Quiet p) (f : α → Plan β) :
    w.answer (p >>= f) = (w.answer p).bind fun a => w.answer (f a) := by
  rw [answer_bind, behind_quiet hb hp]

end Moment

theorem Store.answer_iff {st : Store} {t : Instant} {q : Query} {a : q.Answer} :
    (st.moment t).answer (query q) = some a ↔ st.Answers q a := by
  rw [Moment.answer_eq_some, run_query]
  rfl

/-! ## The calls of the service -/

namespace Service

theorem quiet_require (problems : List Problem) : Quiet (require problems) := fun _ _ => not_asks_require

theorem quiet_requireParticipant (session : SessionId) (member : MemberId) :
    Quiet (requireParticipant session member) := quiet_of_lookups asks_requireParticipant

theorem quiet_find (session : SessionId) (member : MemberId) : Quiet (Plan.find session member) :=
  quiet_query fun _ he => by cases he

theorem quiet_loadExisting (session : SessionId) (member : MemberId) : Quiet (loadExisting session member) := by
  intro is r h
  cases asks_loadExisting h

/-- The end of a check-in or check-out. -/
theorem lands_stamp (move : Instant → Except Failure Record) (n : Notice) :
    Lands (do
      let time ← Plan.now
      let record ← Plan.lift (move time)
      let saved ← Plan.append record
      Plan.log n
      return saved) := by
  refine lands_bind (fun _ _ => not_asks_now) fun t => ?_
  refine lands_bind (fun _ _ => not_asks_lift) fun record => ?_
  exact .append fun saved => .note .done

theorem lands_load {problems : List Problem} {session : SessionId} {member : MemberId}
    {change : Record → Plan Record} (hc : ∀ r, Quiet (change r)) :
    Lands (do
      require problems
      let record ← loadExisting session member
      let record ← change record
      Plan.append record) := by
  refine lands_bind (quiet_require _) fun _ => ?_
  refine lands_bind (quiet_loadExisting session member) fun record => ?_
  exact lands_bind (hc record) lands_append

end Service

/-- A command fails, or ends in one append. -/
theorem Command.lands (c : Command) : Lands c.plan := by
  cases c with
  | checkIn session member =>
    refine lands_bind (Service.quiet_require _) fun _ => ?_
    refine lands_bind (Service.quiet_requireParticipant session member) fun _ => ?_
    refine lands_bind (Service.quiet_find session member) fun found => ?_
    exact Service.lands_stamp _ _
  | checkOut session member =>
    refine lands_bind (Service.quiet_require _) fun _ => ?_
    refine lands_bind (Service.quiet_requireParticipant session member) fun _ => ?_
    refine lands_bind (Service.quiet_loadExisting session member) fun record => ?_
    exact Service.lands_stamp _ _
  | request => exact Service.lands_load fun _ => quiet_of_lookups Correction.asks_request
  | approve => exact Service.lands_load fun _ => quiet_of_lookups Correction.asks_approve
  | reject => exact Service.lands_load fun _ => quiet_of_lookups Correction.asks_reject

/-! ## The calls that only ask -/

/-- A call that only asks. -/
inductive Inquiry where
  | status (session : SessionId) (member : MemberId)
  | correctionState (session : SessionId) (member : MemberId)
  | history (session : SessionId) (member : MemberId)
  | memberSummary (member : MemberId) (sessions : List SessionId)
  | courseSummary (course : CourseId)

namespace Inquiry

def Answer : Inquiry → Type
  | .status .. => Status
  | .correctionState .. => Correction
  | .history .. => List Event
  | .memberSummary .. => Summary
  | .courseSummary _ => CourseSummary

def plan : (i : Inquiry) → Plan i.Answer
  | .status s m => Service.status s m
  | .correctionState s m => Service.correctionState s m
  | .history s m => Service.history s m
  | .memberSummary m sessions => Service.memberSummary m sessions
  | .courseSummary course => Service.courseSummary course

theorem quiet_inspect (session : SessionId) (member : MemberId) (absent : α) (read : Record → α) :
    Quiet (Service.inspect session member absent read) := by
  refine quiet_bind (Service.quiet_require _) fun _ => ?_
  refine quiet_bind (Service.quiet_find session member) fun found => ?_
  cases found <;> exact fun _ _ => not_asks_pure

theorem quiet_summarize (member : MemberId) (sessions : List SessionId) :
    Quiet (Service.summarize member sessions) :=
  quiet_bind (quiet_query fun _ he => by cases he) fun _ _ _ => not_asks_pure

theorem quiet_summarizeAll (sessions : List SessionId) (members : List MemberId) :
    Quiet (Service.summarizeAll sessions members) := by
  induction members with
  | nil => exact fun _ _ => not_asks_pure
  | cons m ms ih =>
    refine quiet_bind (quiet_summarize m sessions) fun _ => ?_
    exact quiet_bind ih fun _ _ _ => not_asks_pure

theorem quiet (i : Inquiry) : Quiet i.plan := by
  cases i with
  | status session member => exact quiet_inspect session member .absent Record.status
  | correctionState session member => exact quiet_inspect session member .idle Record.correction
  | history session member => exact quiet_inspect session member [] Record.events
  | memberSummary member sessions =>
    show Quiet (Service.memberSummary member sessions)
    unfold Service.memberSummary
    split
    · exact fun _ _ => not_asks_fail
    · exact quiet_summarize _ _
  | courseSummary course =>
    have hnone (n : Notice) (c : CourseSummary) : Quiet (Plan.log n >>= fun _ => pure c) :=
      quiet_bind (fun _ _ => not_asks_log) fun _ _ _ => not_asks_pure
    show Quiet (Service.courseSummary course)
    unfold Service.courseSummary
    split
    · exact fun _ _ => not_asks_fail
    · refine quiet_bind (quiet_query fun _ he => by cases he) fun sessions => ?_
      split
      · exact hnone _ _
      · refine quiet_bind (quiet_query fun _ he => by cases he) fun members => ?_
        split
        · exact hnone _ _
        · exact quiet_bind (quiet_summarizeAll _ _) fun _ _ _ => not_asks_pure

end Inquiry

end Rollbook
