import Rollbook.Proofs.Atomic
import Rollbook.Proofs.Audit
/-
  Rollbook.Proofs.Announced — what a call says it has done.

  Each call that changes a record announces its event by a line of its own. A check-in
  or check-out does so when its append has come back, and its line is there exactly if
  its event is stored. A request or a review (`Command.hasty`) has the line written by
  the transition, before the event is stored: when the append fails, because the store
  is down or someone else was faster, the line stays and nothing has happened
  (`exists_announced_unstored`).

  Apart from that the log can be trusted (`announced_of_run`), whatever the store is,
  whatever others do to it before each question and whatever is down then: a call that
  fails before its append announces nothing, the others announce the event that they
  append and no other, once; and what is appended is stored as a whole or not at all.

  `Comes` takes a plan to where its announcement is at stake, with whatever it asks and
  notes before left out.
-/

namespace Rollbook

open Plan World

/-! ## Announcements -/

/-- The line that announces the event of a log. -/
def Event.announcement (session : SessionId) (member : MemberId) : Event → Notice
  | .checkedIn _ => .checkedIn member session
  | .checkedOut _ => .checkedOut member session
  | .requested q => .requested q.requester member session q.current q.wanted
  | .corrected _ previous new _ reviewer => .approved reviewer member session previous new
  | .rejected _ _ reviewer => .rejected reviewer member session

/-- The lines that tell of something done. -/
def announcements (notes : List Notice) : List Notice := notes.filter fun n => n.level = .info

/-- The call announces its event before it appends it. -/
def Command.hasty : Command → Bool
  | .checkIn .. | .checkOut .. => false
  | .request .. | .approve .. | .reject .. => true

theorem announcements_append (notes more : List Notice) :
    announcements (notes ++ more) = announcements notes ++ announcements more := List.filter_append ..

@[simp] theorem announcements_event (session : SessionId) (member : MemberId) (e : Event) :
    announcements [e.announcement session member] = [e.announcement session member] := by
  cases e <;> rfl

theorem announcements_cons_of_ne {n : Notice} (h : n.level ≠ .info) (notes : List Notice) :
    announcements (n :: notes) = announcements notes := by
  simp [announcements, h]

/-! ## Backends that announce nothing themselves -/

/-- What is found is of the session and the member that were asked for and has nothing to add, and so has the new
    record in its place. -/
def Query.Apt : (q : Query) → q.Answer → Prop
  | .find session member, found =>
    (found.getD (.new session member)).Sound ∧ (found.getD (.new session member)).uncommitted = [] ∧
      (found.getD (.new session member)).session = session ∧ (found.getD (.new session member)).member = member
  | _, _ => True

/-- The backend leaves announcements to the calls and finds what it is asked for. It may fail at any time, but only an
    append takes its state out of `I`. -/
structure Backend.Honest {σ : Type} (b : Backend σ) (I : σ → Prop) : Prop where
  apt : ∀ q s a, (b q s).result = .ok a → q.Apt a
  hushed : ∀ q s, announcements (b q s).notes = []
  kept : ∀ q s, (∀ r, q ≠ .append r) → I s → I (b q s).state

namespace Plan

variable {σ α β : Type}

/-! ## Where announcements are at stake -/

/-- The plan fails without an announcement or an append, or it comes to a plan of `F` without one. -/
inductive Comes (F : Plan α → Prop) : Plan α → Prop
  | here {p : Plan α} : F p → Comes F p
  | failed (e : Failure) : Comes F (.done (.error e))
  | ask {q : Query} {next : q.Answer → Plan α} : (∀ a, q.Apt a → Comes F (next a)) → (∀ r, q ≠ .append r) →
      Comes F (.ask q next)
  | clock {next : Instant → Plan α} : (∀ t, Comes F (next t)) → Comes F (.clock next)
  | note {n : Notice} {p : Plan α} : n.level ≠ .info → Comes F p → Comes F (.note n p)

/-- The plan has an answer with `Q`. -/
def Has (Q : α → Prop) (p : Plan α) : Prop := ∃ a, Q a ∧ p = .done (.ok a)

variable {F : Plan α → Prop} {G : Plan β → Prop} {Q : α → Prop}

theorem comes_bind {p : Plan α} {f : α → Plan β} (h : Comes F p) (hf : ∀ p', F p' → Comes G (p' >>= f)) :
    Comes G (p >>= f) := by
  induction h with
  | here hp => exact hf _ hp
  | failed e => exact .failed e
  | ask _ hq ih => exact .ask ih hq
  | clock _ ih => exact .clock ih
  | note hn _ ih => exact .note hn ih

/-- What comes behind a plan that has an answer. -/
theorem comes_then {p : Plan α} {f : α → Plan β} (h : Comes (Has Q) p) (hf : ∀ a, Q a → Comes G (f a)) :
    Comes G (p >>= f) := by
  refine comes_bind h fun p' hp => ?_
  obtain ⟨a, ha, rfl⟩ := hp
  exact hf a ha

theorem comes_pure {a : α} (h : Q a) : Comes (Has Q) (pure a) := .here ⟨a, h, rfl⟩

theorem comes_query (q : Query) (hq : ∀ r, q ≠ .append r) : Comes (Has q.Apt) (query q) :=
  .ask (fun a ha => .here ⟨a, ha, rfl⟩) hq

theorem comes_now : Comes (Has fun _ => True) now := .clock fun t => .here ⟨t, trivial, rfl⟩

/-- A line that is no announcement, and a failure. -/
theorem comes_refusal {n : Notice} (hn : n.level ≠ .info) (e : Failure) : Comes F (log n >>= fun _ => fail e) :=
  .note hn (.failed e)

/-- A run announces what is announced from there on, and ends as that does. -/
theorem run_comes {b : Backend σ} {I : σ → Prop} (hb : b.Honest I) {t : Instant} {s : σ} (hs : I s) {p : Plan α}
    (h : Comes F p) :
    (∃ e, (p.run b t s).result = .error e ∧ I (p.run b t s).state ∧ announcements (p.run b t s).notes = []) ∨
      ∃ is p' s', Leads p is p' ∧ F p' ∧ I s' ∧ (p.run b t s).result = (p'.run b t s').result ∧
        (p.run b t s).state = (p'.run b t s').state ∧
        announcements (p.run b t s).notes = announcements (p'.run b t s').notes := by
  induction h generalizing s with
  | here hp => exact Or.inr ⟨[], _, s, .here _, hp, hs, rfl, rfl, rfl⟩
  | failed e => exact Or.inl ⟨e, rfl, hs, rfl⟩
  | @ask q next _ hq ih =>
    have hapt := hb.apt q s
    have hhushed := hb.hushed q s
    have hkept := hb.kept q s hq hs
    rw [run]
    cases hr : b q s with
    | mk result s₁ notes =>
      rw [hr] at hapt hhushed hkept
      cases result with
      | error e => exact Or.inl ⟨e, rfl, hkept, hhushed⟩
      | ok a =>
        dsimp only
        rw [announcements_append, show announcements notes = [] from hhushed, List.nil_append]
        rcases ih a (hapt a rfl) hkept with hfailed | ⟨is, p', s', hl, hrest⟩
        · exact Or.inl hfailed
        · exact Or.inr ⟨_, p', s', .ask hl, hrest⟩
  | clock _ ih =>
    rcases ih t hs with hfailed | ⟨is, p', s', hl, hrest⟩
    · exact Or.inl hfailed
    · exact Or.inr ⟨_, p', s', .clock hl, hrest⟩
  | note hn _ ih =>
    rw [run]
    dsimp only
    rw [announcements_cons_of_ne hn]
    rcases ih hs with hfailed | ⟨is, p', s', hl, hrest⟩
    · exact Or.inl hfailed
    · exact Or.inr ⟨is, p', s', .note hl, hrest⟩

end Plan

/-! ## The way to the announcement -/

namespace Authority

theorem comes_roleInCourseOf (member : MemberId) (session : SessionId) :
    Comes (Has fun _ => True) (roleInCourseOf member session) := by
  refine comes_then (comes_query (.sessionScope session) (by simp)) fun scope _ => ?_
  split
  · exact comes_then (f := pure) (comes_query (.courseRole member _) (by simp)) fun role _ => comes_pure trivial
  · exact comes_pure trivial

theorem comes_requestGrant (actor : MemberId) (session : SessionId) :
    Comes (Has fun _ => True) (requestGrant actor session) := by
  refine comes_then (comes_roleInCourseOf actor session) fun role _ => ?_
  split
  · exact comes_pure trivial
  · exact comes_then (comes_query (.systemRoles actor) (by simp)) fun held _ => comes_pure trivial

theorem comes_isSessionMember (member : MemberId) (session : SessionId) :
    Comes (Has fun _ => True) (isSessionMember member session) := by
  refine comes_then (comes_query (.sessionScope session) (by simp)) fun scope _ => ?_
  split
  · exact comes_then (comes_query (.courseRole member _) (by simp)) fun role _ => comes_pure trivial
  · exact comes_pure trivial
  · exact comes_pure trivial

end Authority

theorem ReviewAuthority.comes_judge (reviewer requester : MemberId) (grant : Grant) (session : SessionId) :
    Comes (Has fun _ => True) (judge reviewer requester grant session) := by
  refine comes_then (Authority.comes_roleInCourseOf reviewer session) fun role _ => ?_
  split
  · exact comes_pure trivial
  · split
    · exact comes_pure trivial
    · refine comes_then (comes_query (.systemRoles reviewer) (by simp)) fun held _ => ?_
      split
      · exact comes_pure trivial
      · exact comes_pure trivial

namespace Correction

/-- The transition of a hasty call: the announcement of the event, and the record with it. -/
def Announces (c : Command) (record : Record) (p : Plan Record) : Prop :=
  ∃ t e, c.Writes t e ∧ p = .note (e.announcement record.session record.member) (.done (.ok (record.add e)))

theorem comes_pendingOf (record : Record) : Comes (Has fun _ => True) (pendingOf record) := by
  unfold pendingOf
  split
  · exact comes_pure trivial
  · exact .failed _

theorem comes_checkReview (record : Record) (reviewer : MemberId) (pending : Request) :
    Comes (Has fun _ => True) (checkReview record reviewer pending) := by
  refine comes_then (ReviewAuthority.comes_judge _ _ _ _) fun authority _ => ?_
  split
  · exact comes_pure trivial
  · unfold refuseReview
    split <;> exact comes_refusal (by simp [Notice.level]) _

theorem comes_request (record : Record) (actor : MemberId) (session : SessionId) (member : MemberId) (wanted : Status)
    (reason : String) :
    Comes (Announces (.request actor session member wanted reason) record) (request record actor wanted reason) := by
  refine comes_then (Authority.comes_requestGrant actor record.session) fun grant _ => ?_
  split
  · exact comes_refusal (by simp [Notice.level]) _
  · rename_i grant
    dsimp only
    split
    · exact .failed _
    split
    · exact .failed _
    split
    · exact .failed _
    · exact comes_then comes_now fun t _ => .here ⟨t, _, ⟨record.status, grant, rfl⟩, rfl⟩

theorem comes_approve (record : Record) (actor : MemberId) (session : SessionId) (member : MemberId)
    (reason : Option String) :
    Comes (Announces (.approve actor session member reason) record) (approve record actor reason) := by
  refine comes_then (comes_pendingOf record) fun pending _ => ?_
  refine comes_then (comes_checkReview record actor pending) fun _ _ => ?_
  exact comes_then comes_now fun t _ => .here ⟨t, _, ⟨record.status, pending.wanted, _, rfl⟩, rfl⟩

theorem comes_reject (record : Record) (actor : MemberId) (session : SessionId) (member : MemberId) (reason : String) :
    Comes (Announces (.reject actor session member reason) record) (reject record actor reason) := by
  refine comes_then (comes_pendingOf record) fun pending _ => ?_
  refine comes_then (comes_checkReview record actor pending) fun _ _ => ?_
  dsimp only
  split
  · exact .failed _
  · exact comes_then comes_now fun t _ => .here ⟨t, _, rfl, rfl⟩

end Correction

/-- The record is of the session and the member of the call, and all it has to add is an event of the call. -/
structure Command.Proposes (c : Command) (r : Record) (e : Event) : Prop where
  writes : ∃ t, c.Writes t e
  adds : r.uncommitted = [e]
  session : r.session = c.session
  member : r.member = c.member

theorem proposes_add {c : Command} {t : Instant} {e : Event} {found : Option Record}
    (h : (Query.find c.session c.member).Apt found) (hwrites : c.Writes t e) :
    c.Proposes ((found.getD (.new c.session c.member)).add e) e := by
  obtain ⟨hsound, hwhole, hsession, hmember⟩ := h
  refine ⟨⟨t, hwrites⟩, ?_, hsession, hmember⟩
  rw [Record.uncommitted_add hsound, hwhole]
  rfl

/-- The end of a call: the announcement in front of the append, or behind it. -/
inductive Command.Final (c : Command) : Plan Record → Prop
  | before {r : Record} {e : Event} : c.hasty = true → c.Proposes r e →
      Final c (.note (e.announcement c.session c.member) (Plan.append r))
  | behind {r : Record} {e : Event} : c.hasty = false → c.Proposes r e →
      Final c (.ask (.append r) fun saved => .note (e.announcement c.session c.member) (.done (.ok saved)))

namespace Service

theorem comes_require (problems : List Problem) : Comes (Has fun _ => True) (require problems) := by
  unfold require
  split
  · exact comes_pure trivial
  · exact .failed _

theorem comes_requireParticipant (session : SessionId) (member : MemberId) :
    Comes (Has fun _ => True) (requireParticipant session member) := by
  refine comes_then (Authority.comes_isSessionMember member session) fun participates _ => ?_
  split
  · exact comes_pure trivial
  · exact comes_refusal (by simp [Notice.level]) _

theorem comes_loadExisting (session : SessionId) (member : MemberId) :
    Comes (Has fun r : Record => (Query.find session member).Apt (some r)) (loadExisting session member) := by
  refine comes_then (comes_query (.find session member) (by simp)) fun found hfound => ?_
  split
  · exact comes_pure hfound
  · exact .failed _

/-- A hasty call. -/
theorem comes_load {c : Command} (hc : c.hasty = true) {problems : List Problem} {change : Record → Plan Record}
    (hchange : ∀ r, Comes (Correction.Announces c r) (change r)) :
    Comes c.Final (do
      require problems
      let record ← loadExisting c.session c.member
      let record ← change record
      Plan.append record) := by
  refine comes_then (comes_require problems) fun _ _ => ?_
  refine comes_then (comes_loadExisting c.session c.member) fun r hr => ?_
  refine comes_bind (hchange r) fun p' hp => ?_
  obtain ⟨t, e, hwrites, rfl⟩ := hp
  have hproposes := proposes_add hr hwrites
  obtain ⟨-, -, hsession, hmember⟩ := hr
  rw [show r.session = c.session from hsession, show r.member = c.member from hmember]
  exact .here (.before hc hproposes)

end Service

namespace Command

theorem comes (c : Command) : Comes c.Final c.plan := by
  cases c with
  | checkIn session member =>
    refine comes_then (Service.comes_require _) fun _ _ => ?_
    refine comes_then (Service.comes_requireParticipant session member) fun _ _ => ?_
    refine comes_then (comes_query (.find session member) (by simp)) fun found hfound => ?_
    refine comes_then comes_now fun t _ => ?_
    cases h : (found.getD (.new session member)).checkIn t with
    | error e => exact .failed e
    | ok r =>
      obtain ⟨-, rfl⟩ := eq_add_of_checkIn h
      exact .here (.behind rfl (proposes_add (c := .checkIn session member) hfound (t := t) rfl))
  | checkOut session member =>
    refine comes_then (Service.comes_require _) fun _ _ => ?_
    refine comes_then (Service.comes_requireParticipant session member) fun _ _ => ?_
    refine comes_then (Service.comes_loadExisting session member) fun record hrecord => ?_
    refine comes_then comes_now fun t _ => ?_
    cases h : record.checkOut t with
    | error e => exact .failed e
    | ok r =>
      obtain ⟨-, rfl⟩ := eq_add_of_checkOut h
      exact .here (.behind rfl (proposes_add (c := .checkOut session member) hrecord (t := t) rfl))
  | request actor session member wanted reason =>
    exact Service.comes_load (c := .request actor session member wanted reason) rfl fun r =>
      Correction.comes_request r actor session member wanted reason
  | approve actor session member reason =>
    exact Service.comes_load (c := .approve actor session member reason) rfl fun r =>
      Correction.comes_approve r actor session member reason
  | reject actor session member reason =>
    exact Service.comes_load (c := .reject actor session member reason) rfl fun r =>
      Correction.comes_reject r actor session member reason

end Command

/-- The end of a call is as its append, and the event is announced if that goes through or the call is hasty. -/
theorem run_final {σ : Type} {b : Backend σ} {I : σ → Prop} (hb : b.Honest I) {c : Command} {p : Plan Record}
    (h : c.Final p) (now : Instant) (s : σ) :
    ∃ r e, Asks p [] (.append r) ∧ c.Proposes r e ∧ (p.run b now s).result = (b (.append r) s).result ∧
      (p.run b now s).state = (b (.append r) s).state ∧
      announcements (p.run b now s).notes =
        if (p.run b now s).result.isOk || c.hasty then [e.announcement c.session c.member] else [] := by
  cases h with
  | @before r e hhasty hproposes =>
    have hhushed := hb.hushed (.append r) s
    have hrun : (Plan.note (e.announcement c.session c.member) (Plan.append r)).run b now s =
        { b (.append r) s with notes := e.announcement c.session c.member :: (b (.append r) s).notes } := by
      rw [← run_query (b := b) (t := now) (s := s) (.append r)]
      rfl
    refine ⟨r, e, ⟨_, .note (.here _)⟩, hproposes, ?_⟩
    rw [hrun, hhasty]
    refine ⟨rfl, rfl, ?_⟩
    rw [← List.singleton_append, announcements_append, hhushed, announcements_event]
    simp
  | @behind r e hhasty hproposes =>
    have hhushed := hb.hushed (.append r) s
    refine ⟨r, e, ⟨_, .here _⟩, hproposes, ?_⟩
    rw [run, hhasty]
    cases hr : b (.append r) s with
    | mk result s' notes =>
      rw [hr] at hhushed
      cases result with
      | error err => exact ⟨rfl, rfl, hhushed⟩
      | ok saved =>
        refine ⟨rfl, rfl, ?_⟩
        show announcements (notes ++ [e.announcement c.session c.member]) = _
        rw [announcements_append, announcements_event, show announcements notes = [] from hhushed]
        rfl

/-! ## What an append stores -/

/-- The event was added to the log of the record, which goes by this number, and the others are as they were. -/
inductive Store.Gains (r : Record) (e : Event) : Store → Store → RecordId → Prop
  | memory {m : Memory} {shelf : Shelf} {k : Stored} : shelf.stored? r.session r.member = some k →
      k.events = ((m.shelf.stored? r.session r.member).map Stored.events).getD [] ++ [e] →
      (∀ session member, (session, member) ≠ (r.session, r.member) →
        shelf.stored? session member = m.shelf.stored? session member) →
      Gains r e (.memory m) (.memory { m with shelf }) k.id
  | opened {t : Tables} : r.id = none → t.header? r.session r.member = none →
      Gains r e (.tables t)
        (.tables { t.opened r with entries := t.entries ++ Tables.rows (t.lastRecord + 1) r.persisted [e] })
        (t.lastRecord + 1)
  | raised {t : Tables} {h : Header} : r.id = some h.id → h ∈ t.headers →
      Gains r e (.tables t)
        (.tables { t.raised h.id r.version with entries := t.entries ++ Tables.rows h.id r.persisted [e] }) h.id

/-- The append has stored the event of the record, or it has failed and left the store as it was. -/
def Store.Done (r : Record) (e : Event) (st : Store) (reply : Reply Store Record) : Prop :=
  (∃ id, reply.result = .ok (r.stored id) ∧ st.Gains r e reply.state id) ∨
    ∃ err, reply.result = .error err ∧ reply.state = st

theorem done_append_memory {r : Record} {e : Event} (h : r.uncommitted = [e]) (m : Memory) :
    (Store.memory m).Done r e ((Store.memory m).backend (.append r)) := by
  cases happend : m.shelf.append r with
  | mk result shelf notes =>
    rw [Store.append_memory happend]
    unfold Shelf.append at happend
    rw [h] at happend
    dsimp only at happend
    split at happend
    · cases happend
      exact Or.inr ⟨_, rfl, rfl⟩
    · cases happend
      let kept : Stored := (m.shelf.stored? r.session r.member).getD ⟨m.shelf.lastId + 1, 0, []⟩
      refine Or.inl ⟨_, rfl, .memory (k := ⟨kept.id, kept.version + 1, kept.events ++ [e]⟩) ?_ ?_
        fun session member hother => ?_⟩
      · unfold Shelf.stored?
        rw [Keyed.lookup_put, if_pos (beq_self_eq_true _)]
        rfl
      · show kept.events ++ [e] = _
        unfold kept
        cases m.shelf.stored? r.session r.member <;> rfl
      · unfold Shelf.stored?
        rw [Keyed.lookup_put, if_neg fun hsame => hother (eq_of_beq hsame)]

theorem done_append_tables {r : Record} {e : Event} (h : r.uncommitted = [e]) (t : Tables) :
    (Store.tables t).Done r e ((Store.tables t).backend (.append r)) := by
  have hrows : ∀ id, Tables.newEntries r id = Tables.rows id r.persisted [e] := fun id => by
    unfold Tables.newEntries
    rw [h]
    rfl
  rcases Tables.append_outcome t r with ⟨err, notes, happend⟩ | ⟨hu, -⟩ | ⟨-, id, t', hsecure, happend⟩
  · rw [Store.append_tables happend]
    exact Or.inr ⟨err, rfl, rfl⟩
  · rw [h] at hu
    cases hu
  · rw [hrows] at happend
    rw [Store.append_tables happend]
    left
    rcases Tables.eq_of_secureHeader hsecure with ⟨hid, -, hnone, -, rfl, rfl⟩ | ⟨hid, header, hmem, rfl, -, rfl⟩
    · exact ⟨_, rfl, .opened hid hnone⟩
    · exact ⟨_, rfl, .raised hid hmem⟩

theorem done_append {r : Record} {e : Event} (h : r.uncommitted = [e]) (st : Store) :
    st.Done r e (st.backend (.append r)) := by
  cases st with
  | memory m => exact done_append_memory h m
  | tables t => exact done_append_tables h t

theorem done_withOutages {r : Record} {e : Event} (h : r.uncommitted = [e]) (down : Outages) (st : Store) :
    st.Done r e (Store.backend.withOutages down (.append r) st) := by
  rcases withOutages_cases Store.backend down (.append r) st with hsame | ⟨err, hdown⟩
  · rw [hsame]
    exact done_append h st
  · rw [hdown]
    exact Or.inr ⟨err, rfl, rfl⟩

/-! ## A store that others use as well -/

namespace Store

/-- The store of a call: before each question others may do something to it, and methods may be down. -/
def amid (others : Nat → Store → Store) (down : Nat → Outages) : Backend (Nat × Store) := fun q s =>
  let reply := Store.backend.withOutages (down s.1) q (others s.1 s.2)
  ⟨reply.result, (s.1 + 1, reply.state), reply.notes⟩

/-- What the others have made of the store by a question. -/
def drift (others : Nat → Store → Store) (st : Store) : Nat → Store
  | 0 => st
  | n + 1 => others n (st.drift others n)

theorem hushed_append_memory (s : Shelf) (r : Record) : announcements (s.append r).notes = [] := by
  unfold Shelf.append
  dsimp only
  split
  · rfl
  · split <;> rfl

theorem hushed_append_tables (t : Tables) (r : Record) : announcements (t.append r).notes = [] := by
  unfold Tables.append
  dsimp only
  (repeat' split) <;> rfl

theorem hushed (q : Query) (st : Store) : announcements (st.backend q).notes = [] := by
  cases st with
  | memory m =>
    cases q with
    | append r => exact hushed_append_memory m.shelf r
    | _ => rfl
  | tables t =>
    cases q with
    | append r => exact hushed_append_tables t r
    | _ => rfl

theorem honest_amid (others : Nat → Store → Store) (down : Nat → Outages) (st : Store) :
    (amid others down).Honest fun s => s.2 = st.drift others s.1 := by
  refine ⟨fun q s a ha => ?_, fun q s => ?_, fun q s hq hs => ?_⟩
  · have ha : (Store.backend.withOutages (down s.1) q (others s.1 s.2)).result = .ok a := ha
    rw [eq_of_withOutages ha] at ha
    cases q with
    | find session member => exact whole_of_find ha
    | _ => trivial
  · show announcements (Store.backend.withOutages (down s.1) q (others s.1 s.2)).notes = []
    rcases withOutages_cases Store.backend (down s.1) q (others s.1 s.2) with hsame | ⟨e, hdown⟩
    · rw [hsame]
      exact hushed q _
    · rw [hdown]
      rfl
  · show (Store.backend.withOutages (down s.1) q (others s.1 s.2)).state = others s.1 (st.drift others s.1)
    rw [calm_withOutages calm_store (down s.1) q _ hq, hs]

end Store

/-! ## What is announced and what is stored -/

/-- How the call may end that began with this store, and what it has announced by then. -/
inductive Command.Told (c : Command) (others : Nat → Store → Store) (st : Store) : Reply (Nat × Store) Record → Prop
  /-- It fails before its append. -/
  | refused {n : Nat} {e : Failure} {notes : List Notice} : announcements notes = [] →
      Told c others st ⟨.error e, (n, st.drift others n), notes⟩
  | stored {n : Nat} {is : List Input} {r : Record} {e : Event} {id : RecordId} {st' : Store} {notes : List Notice} :
      Asks c.plan is (.append r) → c.Proposes r e → (st.drift others n).Gains r e st' id →
      announcements notes = [e.announcement c.session c.member] → Told c others st ⟨.ok (r.stored id), (n, st'), notes⟩
  /-- Its append fails. -/
  | unstored {n : Nat} {is : List Input} {r : Record} {e : Event} {err : Failure} {notes : List Notice} :
      Asks c.plan is (.append r) → c.Proposes r e →
      announcements notes = (if c.hasty then [e.announcement c.session c.member] else []) →
      Told c others st ⟨.error err, (n, st.drift others n), notes⟩

/-- Whatever others do meanwhile and whatever is down: a call announces the event that it comes to append and no other,
    once, and nothing if it does not come to that. The event is stored if the append goes through, and otherwise nothing
    is; but only the calls that are not hasty leave the announcement away then. -/
theorem announced_of_run (others : Nat → Store → Store) (down : Nat → Outages) (now : Instant) (st : Store)
    (c : Command) : c.Told others st (c.plan.run (Store.amid others down) now (0, st)) := by
  have hhonest := Store.honest_amid others down st
  cases hrun : c.plan.run (Store.amid others down) now (0, st) with
  | mk result state notes =>
    rcases run_comes (t := now) (s := (0, st)) hhonest rfl c.comes with
      ⟨e, hresult, hstate, hnotes⟩ | ⟨is, p, ⟨n, s⟩, hl, hfinal, hs, hresult, hstate, hnotes⟩
    · rw [hrun] at hresult hstate hnotes
      obtain ⟨n, s⟩ := state
      obtain rfl : result = .error e := hresult
      obtain rfl : s = st.drift others n := hstate
      exact .refused hnotes
    · obtain ⟨r, e, ⟨next, hasks⟩, hproposes, hend, hleft, htold⟩ := run_final hhonest hfinal now (n, s)
      rw [← hresult, ← hnotes, hrun] at htold
      rw [← hresult, hrun] at hend
      rw [← hstate, hrun] at hleft
      obtain rfl : s = st.drift others n := hs
      have hcomes : Asks c.plan _ (.append r) := ⟨next, leads_append hl hasks⟩
      -- the append is the question behind the `n`-th, and others come before it once more
      have hdone := done_withOutages hproposes.adds (down n) (st.drift others (n + 1))
      rcases hdone with ⟨id, hsaved, hgains⟩ | ⟨err, hfailed, hkept⟩
      · obtain rfl : result = .ok (r.stored id) := hend.trans hsaved
        obtain rfl := hleft
        exact .stored hcomes hproposes hgains htold
      · obtain rfl : result = .error err := hend.trans hfailed
        obtain rfl : state = (n + 1, st.drift others (n + 1)) := hleft.trans (congrArg (Prod.mk (n + 1)) hkept)
        exact .unstored hcomes hproposes htold

/-! ## An announcement of nothing -/

/-- A member who was in time is to count as late. -/
def filed : List Event := [.checkedIn morning, .requested ⟨morning, .present, .late, "bus", 2, ⟨.course, 1⟩⟩]

theorem exists_reach_filed : ∃ w, Reach ⟨false, false⟩ w ∧ w.clock = morning ∧
    w.store = .memory ⟨school, ⟨1, [((7, 1), ⟨1, 2, filed⟩)]⟩⟩ := by
  obtain ⟨w₁, hreach₁, hst₁, hclock₁⟩ := reach_run (reach_school ⟨false, false⟩) (.checkIn 7 1)
  obtain ⟨w₂, hreach₂, hst₂, hclock₂⟩ := reach_run hreach₁ (.request 2 7 1 .late "bus")
  rw [hst₁, hclock₁] at hst₂
  exact ⟨w₂, hreach₂, hclock₂.trans hclock₁, hst₂⟩

/-- While appends are down a review is announced and not stored. -/
theorem exists_announced_unstored : ∃ (w : World) (reply : Reply Store Record), Reach ⟨false, false⟩ w ∧
    reply = (Service.approveCorrection 3 7 1 none).run (Store.backend.withOutages [(.append, .full)]) w.clock w.store ∧
    announcements reply.notes = [.approved 3 1 7 .present .late] ∧ reply.result = .error (.database .full) ∧
    reply.state = w.store ∧ reply.state.Answers (.find 7 1) (some (.rehydrate 1 7 1 2 filed)) := by
  obtain ⟨w, hreach, hclock, hst⟩ := exists_reach_filed
  refine ⟨w, _, hreach, rfl, ?_, ?_, ?_, ?_⟩ <;> rw [hclock, hst] <;> rfl

end Rollbook
