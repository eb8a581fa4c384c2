import Rollbook.Proofs.Review
/-
  Rollbook.Proofs.Filing — the right to file a correction, and the grant that records it.

  Who may file is said in terms of roles: MENTOR or above in the session, or OPERATOR or
  above anywhere. In a session that stands alone OPERATOR takes the place of MENTOR, and
  in one that does not exist nobody has a role. The grant is worked out in another way,
  from the role in the session's course and then from all system roles together. Both
  come to the same, and a grant is `Warranted` by what is said of roles and sessions:
  by what a store answers, or by what a call has heard.

  A request in a stored log shows the grant that its call was given. The call may have
  heard its answers one after the other while the directory changed, and others may have
  appended before it; but what it appends stands behind the log that it had loaded before
  it asked (`files_of_adds`). So the grant of every request in a stored log was warranted
  when the request was let through, whatever roles its requester has by now
  (`warranted_of_reach`).
-/

namespace Rollbook

open Ladder Ledger Plan World

/-! ## The highest rank -/

namespace Ladder

variable {L : Type} [Ladder L] {roles : List L}

theorem le_of_highestRank {n : UInt8} (h : highestRank roles = some n) : ∀ r ∈ roles, rank r ≤ n := by
  induction roles generalizing n with
  | nil => exact fun _ hr => nomatch hr
  | cons r roles ih =>
    rw [highestRank] at h
    split at h
    · rename_i hnone
      cases h
      refine List.forall_mem_cons.2 ⟨UInt8.le_refl _, fun r' hr' => ?_⟩
      cases roles with
      | nil => cases hr'
      | cons => rw [highestRank] at hnone; split at hnone <;> cases hnone
    · rename_i m hm
      cases h
      split
      · rename_i hle
        exact List.forall_mem_cons.2 ⟨UInt8.le_refl _, fun r' hr' => UInt8.le_trans (ih hm r' hr') hle⟩
      · rename_i hlt
        exact List.forall_mem_cons.2 ⟨UInt8.le_of_lt (UInt8.not_le.1 hlt), ih hm⟩

theorem exists_highestRank_of_mem {r : L} (h : r ∈ roles) : ∃ n, highestRank roles = some n := by
  cases roles with
  | nil => cases h
  | cons r' roles =>
    rw [highestRank]
    split <;> exact ⟨_, rfl⟩

/-- The highest rank is the rank of a role above which there is no other. -/
theorem highestRank_eq_some {n : UInt8} :
    highestRank roles = some n ↔ ∃ r ∈ roles, rank r = n ∧ ∀ r' ∈ roles, rank r' ≤ rank r := by
  constructor
  · intro h
    obtain ⟨r, hr, rfl⟩ := ReviewAuthority.exists_of_highestRank h
    exact ⟨r, hr, rfl, le_of_highestRank h⟩
  · rintro ⟨r, hr, rfl, hall⟩
    obtain ⟨m, hm⟩ := exists_highestRank_of_mem hr
    obtain ⟨r', hr', rfl⟩ := ReviewAuthority.exists_of_highestRank hm
    rw [hm, UInt8.le_antisymm (hall r' hr') (le_of_highestRank hm r hr)]

/-- The highest rank among the roles, 0 where there are none. -/
def topRank (roles : List L) : UInt8 := (highestRank roles).getD 0

theorem le_topRank {r : L} (h : r ∈ roles) : rank r ≤ topRank roles := by
  obtain ⟨n, hn⟩ := exists_highestRank_of_mem h
  unfold topRank
  rw [hn]
  exact le_of_highestRank hn r h

theorem topRank_eq (roles : List L) : topRank roles = 0 ∨ ∃ r ∈ roles, rank r = topRank roles := by
  unfold topRank
  cases h : highestRank roles with
  | none => exact Or.inl rfl
  | some n => exact Or.inr (ReviewAuthority.exists_of_highestRank h)

theorem topRank_le {n : UInt8} (h : ∀ r ∈ roles, rank r ≤ n) : topRank roles ≤ n := by
  rcases topRank_eq roles with h0 | ⟨r, hr, htop⟩
  · rw [h0]
    exact UInt8.zero_le
  · rw [← htop]
    exact h r hr

theorem any_atLeast_iff {minimum : L} (hpos : 0 < rank minimum) :
    (roles.any fun r => atLeast r minimum) = true ↔ rank minimum ≤ topRank roles := by
  rw [List.any_eq_true]
  constructor
  · rintro ⟨r, hr, hat⟩
    exact UInt8.le_trans (of_decide_eq_true hat) (le_topRank hr)
  · intro hle
    rcases topRank_eq roles with h0 | ⟨r, hr, htop⟩
    · rw [h0] at hle
      exact absurd hpos (UInt8.not_lt.2 hle)
    · exact ⟨r, hr, decide_eq_true (htop ▸ hle)⟩

end Ladder

/-! ## Grants that are warranted -/

/-- What is said of roles and sessions. -/
abbrev Said := (q : Query) → q.Answer → Prop

/-- The role that someone is said to have in the course of the session, none where the session has no course. -/
inductive Said.Role (said : Said) (member : MemberId) (session : SessionId) : Option CourseRole → Prop
  | inCourse {course : CourseId} {role : Option CourseRole} : said (.sessionScope session) (some (.course course)) →
      said (.courseRole member course) role → Role said member session role
  | noCourse {scope : Option Scope} : said (.sessionScope session) scope → (∀ course, scope ≠ some (.course course)) →
      Role said member session none

/-- The grant under which someone may file. MENTOR or above in the session's course gives one of that course;
    everybody else who holds OPERATOR or above is given one for the highest of all their system roles. -/
inductive Grant.Warranted (said : Said) (actor : MemberId) (session : SessionId) : Grant → Prop
  | course {r : CourseRole} : said.Role actor session (some r) → atLeast r .mentor = true →
      Warranted said actor session ⟨.course, Ladder.rank r⟩
  | system {role : Option CourseRole} {held : List SystemRole} {r : SystemRole} : said.Role actor session role →
      (∀ r', role = some r' → atLeast r' .mentor = false) → said (.systemRoles actor) held →
      r ∈ held → (∀ r' ∈ held, Ladder.rank r' ≤ Ladder.rank r) → atLeast r .operator = true →
      Warranted said actor session ⟨.system, Ladder.rank r⟩

section

variable {said said' : Said} {actor : MemberId} {session : SessionId} {g : Grant}

theorem Said.role_mono (h : ∀ (q : Query) (a : q.Answer), q.IsLookup → said q a → said' q a) {role : Option CourseRole}
    (hr : said.Role actor session role) : said'.Role actor session role := by
  cases hr with
  | inCourse hscope hrole => exact .inCourse (h _ _ trivial hscope) (h _ _ trivial hrole)
  | noCourse hscope hno => exact .noCourse (h _ _ trivial hscope) hno

theorem Grant.warranted_mono (h : ∀ (q : Query) (a : q.Answer), q.IsLookup → said q a → said' q a)
    (hg : g.Warranted said actor session) : g.Warranted said' actor session := by
  cases hg with
  | course hr hat => exact .course (Said.role_mono h hr) hat
  | system hr hno hheld hmem hall hat => exact .system (Said.role_mono h hr) hno (h _ _ trivial hheld) hmem hall hat

theorem Grant.one_le_rank_of_warranted (h : g.Warranted said actor session) : 1 ≤ g.rank := by
  cases h with
  | course _ hat => exact of_decide_eq_true hat
  | system _ _ _ _ _ hat => exact of_decide_eq_true hat

end

namespace Authority

/-- The grant from the system roles. -/
def systemGrant (held : List SystemRole) : Option Grant :=
  ((highestRank held).filter fun r => rank SystemRole.operator ≤ r).map fun r => ⟨.system, r⟩

/-- The grant from the role in the session's course and the system roles. -/
def grantOf (role : Option CourseRole) (held : List SystemRole) : Option Grant :=
  match role.filter fun r => atLeast r .mentor with
  | some r => some ⟨.course, rank r⟩
  | none => systemGrant held

variable {role : Option CourseRole} {held : List SystemRole} {g : Grant}

theorem grantOf_of_mentor {r : CourseRole} (h : atLeast r .mentor = true) :
    grantOf (some r) held = some ⟨.course, rank r⟩ := by
  unfold grantOf
  rw [Option.filter_some, if_pos h]

theorem grantOf_of_not_mentor (h : ∀ r, role = some r → atLeast r .mentor = false) :
    grantOf role held = systemGrant held := by
  unfold grantOf
  cases role with
  | none => rfl
  | some r => rw [Option.filter_some, h r rfl]; rfl

theorem systemGrant_eq_some : systemGrant held = some g ↔
    ∃ r ∈ held, (∀ r' ∈ held, rank r' ≤ rank r) ∧ atLeast r .operator = true ∧ g = ⟨.system, rank r⟩ := by
  simp only [systemGrant, Option.map_eq_some_iff, Option.filter_eq_some_iff, highestRank_eq_some]
  constructor
  · rintro ⟨n, ⟨⟨r, hr, rfl, hall⟩, hat⟩, rfl⟩
    exact ⟨r, hr, hall, hat, rfl⟩
  · rintro ⟨r, hr, hall, hat, rfl⟩
    exact ⟨rank r, ⟨⟨r, hr, rfl, hall⟩, hat⟩, rfl⟩

theorem systemGrant_eq : systemGrant held =
    if rank SystemRole.operator ≤ topRank held then some ⟨.system, topRank held⟩ else none := by
  unfold systemGrant topRank
  cases highestRank held with
  | none => rfl
  | some n =>
    rw [Option.filter_some, Option.getD_some]
    by_cases hn : rank SystemRole.operator ≤ n
    · rw [if_pos hn, if_pos (decide_eq_true hn)]
      rfl
    · rw [if_neg hn, if_neg fun hle => hn (of_decide_eq_true hle)]
      rfl

theorem isSome_systemGrant : (systemGrant held).isSome = held.any fun r => atLeast r .operator := by
  rw [systemGrant_eq, Bool.eq_iff_iff, any_atLeast_iff (by decide)]
  split
  · rename_i hle
    exact iff_of_true rfl hle
  · rename_i hno
    exact iff_of_false Bool.false_ne_true hno

/-- Someone is given a grant who has MENTOR or above in the course, or OPERATOR or above. -/
theorem isSome_grantOf : (grantOf role held).isSome =
    ((role.any fun r => atLeast r .mentor) || held.any fun r => atLeast r .operator) := by
  cases role with
  | none =>
    rw [grantOf_of_not_mentor (fun r hr => by cases hr), isSome_systemGrant]
    rfl
  | some r =>
    cases hat : atLeast r .mentor with
    | true =>
      rw [grantOf_of_mentor hat, Option.any_some, hat]
      rfl
    | false =>
      rw [grantOf_of_not_mentor (fun r' hr' => by cases hr'; exact hat), isSome_systemGrant, Option.any_some, hat]
      rfl

end Authority

/-! ## What a store answers -/

section

variable {st : Store} {t : Instant} {actor : MemberId} {session : SessionId}

theorem Store.said_role {role : Option CourseRole} :
    Said.Role st.Answers actor session role ↔ st.roleIn actor session = role := by
  unfold Store.roleIn
  constructor
  · intro h
    cases h with
    | inCourse hscope hrole =>
      rw [Store.answers_sessionScope.1 hscope]
      exact Store.answers_courseRole.1 hrole
    | @noCourse scope hscope hno =>
      rw [Store.answers_sessionScope.1 hscope]
      split
      · rename_i course
        exact absurd rfl (hno course)
      · rfl
  · rintro rfl
    split
    · rename_i course hscope
      exact .inCourse (Store.answers_sessionScope.2 hscope) (Store.answers_courseRole.2 rfl)
    · rename_i hno
      exact .noCourse (Store.answers_sessionScope.2 rfl) fun course hscope => hno course hscope

theorem grantOf_eq_some {g : Grant} :
    Authority.grantOf (st.roleIn actor session) (st.systemRoles actor) = some g ↔
      g.Warranted st.Answers actor session := by
  constructor
  · intro h
    by_cases hmentor : ∃ r, st.roleIn actor session = some r ∧ atLeast r .mentor = true
    · obtain ⟨r, hr, hat⟩ := hmentor
      rw [hr, Authority.grantOf_of_mentor hat] at h
      cases h
      exact .course (Store.said_role.2 hr) hat
    · have hno : ∀ r, st.roleIn actor session = some r → atLeast r .mentor = false := fun r hr =>
        Bool.eq_false_iff.2 fun hat => hmentor ⟨r, hr, hat⟩
      rw [Authority.grantOf_of_not_mentor hno] at h
      obtain ⟨r, hr, hall, hat, rfl⟩ := Authority.systemGrant_eq_some.1 h
      exact .system (Store.said_role.2 rfl) hno (Store.answers_systemRoles.2 rfl) hr hall hat
  · intro h
    cases h with
    | course hr hat => rw [Store.said_role.1 hr, Authority.grantOf_of_mentor hat]
    | @system role held r hr hno hheld hmem hall hat =>
      rw [Store.said_role.1 hr, Store.answers_systemRoles.1 hheld, Authority.grantOf_of_not_mentor hno]
      exact Authority.systemGrant_eq_some.2 ⟨r, hmem, hall, hat, rfl⟩

/-- What a plan answers that leaves the store as it is. -/
theorem Store.answer_of_run {α : Type} {p : Plan α} {a : α} {st' : Store} {notes : List Notice}
    (h : p.run Store.backend t st = ⟨.ok a, st', notes⟩) : (st.moment t).answer p = some a :=
  (Moment.answer_eq_some _).2 (congrArg Reply.result h)

theorem run_requestGrant (st : Store) (t : Instant) (actor : MemberId) (session : SessionId) :
    (Authority.requestGrant actor session).run Store.backend t st =
    ⟨.ok (Authority.grantOf (st.roleIn actor session) (st.systemRoles actor)), st, []⟩ := by
  refine (run_bind_of_ok (run_roleInCourseOf actor session) _).trans ?_
  unfold Authority.grantOf
  cases (st.roleIn actor session).filter fun r => atLeast r .mentor with
  | some r => rfl
  | none =>
    refine (run_bind_of_ok ((run_query _).trans (st.backend_systemRoles actor)) _).trans ?_
    rfl

theorem run_hasSystemRoleOrHigher (st : Store) (t : Instant) (actor : MemberId) (minimum : SystemRole) :
    (Authority.hasSystemRoleOrHigher actor minimum).run Store.backend t st =
      ⟨.ok ((st.systemRoles actor).any fun r => atLeast r minimum), st, []⟩ :=
  run_bind_of_ok ((run_query _).trans (st.backend_systemRoles actor)) _

/-- MENTOR or above in the session, or OPERATOR or above where the session stands alone. -/
theorem run_hasSessionRoleOrHigher (st : Store) (t : Instant) (actor : MemberId) (session : SessionId)
    (minimum : CourseRole) :
    (Authority.hasSessionRoleOrHigher actor session minimum).run Store.backend t st =
      ⟨.ok (match st.scope session with
        | some (.course course) => (st.courseRole actor course).any fun r => atLeast r minimum
        | some .standalone => (st.systemRoles actor).any fun r => atLeast r .operator
        | none => false), st, []⟩ := by
  refine (run_bind_of_ok ((run_query _).trans (st.backend_sessionScope session)) _).trans ?_
  cases st.scope session with
  | none => rfl
  | some scope =>
    cases scope with
    | course course => exact run_bind_of_ok ((run_query _).trans (st.backend_courseRole actor course)) _
    | standalone => exact run_hasSystemRoleOrHigher st t actor .operator

/-- The two ways to say who may file come to the same, whatever the session belongs to. -/
theorem isSome_grantOf_eq : (Authority.grantOf (st.roleIn actor session) (st.systemRoles actor)).isSome =
    ((match st.scope session with
      | some (.course course) => (st.courseRole actor course).any fun r => atLeast r .mentor
      | some .standalone => (st.systemRoles actor).any fun r => atLeast r .operator
      | none => false) || (st.systemRoles actor).any fun r => atLeast r .operator) := by
  rw [Authority.isSome_grantOf]
  unfold Store.roleIn
  cases st.scope session with
  | none => rfl
  | some scope =>
    cases scope with
    | course course => rfl
    | standalone => exact (Bool.or_self _).symm

/-- What is asked of a grant: it is given to those who may file, and is the one that their roles warrant. -/
structure Store.Entitles (st : Store) (t : Instant) (actor : MemberId) (session : SessionId) (grant : Option Grant) :
    Prop where
  answered : (st.moment t).answer (Authority.requestGrant actor session) = some grant
  filing : ∃ inSession anywhere,
    (st.moment t).answer (Authority.hasSessionRoleOrHigher actor session .mentor) = some inSession ∧
    (st.moment t).answer (Authority.hasSystemRoleOrHigher actor .operator) = some anywhere ∧
    (grant.isSome = true ↔ inSession = true ∨ anywhere = true)
  warranted : ∀ g, grant = some g ↔ g.Warranted st.Answers actor session
  ranked : ∀ g, grant = some g → 1 ≤ g.rank

theorem entitles (st : Store) (t : Instant) (actor : MemberId) (session : SessionId) :
    st.Entitles t actor session (Authority.grantOf (st.roleIn actor session) (st.systemRoles actor)) := by
  have hgrant := Store.answer_of_run (run_requestGrant st t actor session)
  have hsession := Store.answer_of_run (run_hasSessionRoleOrHigher st t actor session .mentor)
  have hsystem := Store.answer_of_run (run_hasSystemRoleOrHigher st t actor .operator)
  refine ⟨hgrant, ⟨_, _, hsession, hsystem, ?_⟩, fun g => grantOf_eq_some, fun g hg => ?_⟩
  · rw [isSome_grantOf_eq, Bool.or_eq_true]
  · exact Grant.one_le_rank_of_warranted (grantOf_eq_some.1 hg)

end

/-! ## What a call has heard -/

theorem role_of_heard {member : MemberId} {session : SessionId} {is : List Input} {role : Option CourseRole}
    (h : Authority.RoleHeard member session role is) : Said.Role (fun q a => .answer q a ∈ is) member session role := by
  cases h with
  | inCourse course => exact .inCourse List.mem_cons_self (List.mem_cons_of_mem _ List.mem_cons_self)
  | noCourse scope hno => exact .noCourse List.mem_cons_self hno

theorem warranted_of_yields {actor : MemberId} {session : SessionId} {is : List Input} {g : Grant}
    (h : Yields (Authority.requestGrant actor session) is (some g)) :
    g.Warranted (fun q a => .answer q a ∈ is) actor session := by
  obtain ⟨role, is₁, is₂, rfl, hr, ⟨r, hf, rfl, hg⟩ | ⟨hf, held, rfl, hg⟩⟩ := Authority.yields_requestGrant h
  · obtain ⟨rfl, hat⟩ := Option.filter_eq_some_iff.1 hf
    cases hg
    exact .course (Said.role_mono (fun q a _ => List.mem_append_left _) (role_of_heard hr)) hat
  · obtain ⟨r, hmem, hall, hat, rfl⟩ := Authority.systemGrant_eq_some.1 hg.symm
    refine .system (Said.role_mono (fun q a _ => List.mem_append_left _) (role_of_heard hr)) ?_
      (List.mem_append_right _ List.mem_cons_self) hmem hall hat
    intro r' hr'
    exact Bool.eq_false_iff.2 (Option.filter_eq_none_iff.1 hf r' hr')

/-- The call files the request on top of the log `before`, which it had loaded when it asked for its grant. -/
structure Call.Files (c : Call) (session : SessionId) (member : MemberId) (before : List Event) (q : Request)
    (check : List Heard) : Prop where
  command : ∃ reason, c.command = .request q.requester session member q.wanted reason
  loaded : ∃ earlier x later r, c.heard = earlier ++ x :: (check ++ later) ∧
    x.input = .answer (.find session member) (some r) ∧ r.events = before
  granted : Yields (Authority.requestGrant q.requester session) (check.map Heard.input) (some q.grant)
  holds : ∀ x ∈ check, x.Holds

/-- A request was added by a call of its requester, who asked for a grant and was given the one that it shows. -/
theorem request_of_adds {c : Call} {r₀ r : Record} {is : List Input} {q : Request} (h : c.Adds r₀ is (.requested q) r) :
    (∃ reason, c.command = .request q.requester c.command.session c.command.member q.wanted reason) ∧
      ∃ looks t, is = looks ++ [.time t] ∧
        Yields (Authority.requestGrant q.requester r₀.session) looks (some q.grant) := by
  have hmoved := h.moved
  have hadded := h.added
  obtain ⟨command, heard, rest⟩ := c
  cases command with
  | checkIn session member =>
    obtain ⟨t, -, hmove⟩ := hmoved
    obtain ⟨-, rfl⟩ := eq_add_of_checkIn hmove
    cases add_inj hadded
  | checkOut session member =>
    obtain ⟨t, -, hmove⟩ := hmoved
    obtain ⟨-, rfl⟩ := eq_add_of_checkOut hmove
    cases add_inj hadded
  | request actor session member wanted reason =>
    obtain ⟨grant, looks, t, his, hgrant, -, -, -, rfl⟩ := Correction.yields_request hmoved
    cases add_inj hadded
    exact ⟨⟨reason, rfl⟩, looks, t, his, hgrant⟩
  | approve actor session member reason =>
    obtain ⟨q', looks, t, -, -, -, rfl⟩ := Correction.yields_approve hmoved
    cases add_inj hadded
  | reject actor session member reason =>
    obtain ⟨q', looks, t, -, -, -, -, rfl⟩ := Correction.yields_reject hmoved
    cases add_inj hadded

theorem files_of_adds {c : Call} {r₀ r : Record} {is : List Input} {q : Request} (hholds : ∀ x ∈ c.heard, x.Holds)
    (h : c.Adds r₀ is (.requested q) r) : ∃ check, c.Files r₀.session r₀.member r₀.events q check := by
  obtain ⟨⟨reason, hcommand⟩, looks, t, his, hgrant⟩ := request_of_adds h
  rw [← h.session, ← h.member] at hcommand
  rcases h.found with ⟨session, member, hin⟩ | ⟨earlier, hinputs⟩
  · cases hin.symm.trans hcommand
  · rw [← h.session, ← h.member, his] at hinputs
    obtain ⟨before, x, check, after, hheard, hx, hlooks⟩ := heard_of_inputs hinputs
    refine ⟨check, ⟨reason, hcommand⟩, ⟨before, x, after, r₀, hheard, hx, rfl⟩, ?_, fun y hy => ?_⟩
    · rw [hlooks]
      exact hgrant
    · refine hholds y ?_
      rw [hheard]
      exact List.mem_append_right _ (List.mem_cons_of_mem x (List.mem_append_left after hy))

/-- What was heard was answered by the store as it was at that step. -/
theorem answered_of_heard {check : List Heard} (hholds : ∀ x ∈ check, x.Holds) {q : Query} {a : q.Answer}
    (h : .answer q a ∈ check.map Heard.input) : ∃ x ∈ check, x.store.Answers q a := by
  obtain ⟨x, hx, hinput⟩ := List.mem_map.1 h
  have hheld := hholds x hx
  obtain ⟨input, st, t⟩ := x
  cases hinput
  cases hheld with
  | answer hans => exact ⟨_, hx, hans⟩

/-- The grant in a request is warranted by what was answered at the steps of its check; and if the directory did not
    change from one of these steps to another, it is the grant that is given in it. -/
structure Call.Records (check : List Heard) (session : SessionId) (q : Request) : Prop where
  warranted : q.grant.Warranted (fun p a => ∃ x ∈ check, x.store.Answers p a) q.requester session
  given : ∀ (st : Store) (t : Instant), (∀ x ∈ check, x.store.SameDirectory st) →
    (st.moment t).answer (Authority.requestGrant q.requester session) = some (some q.grant)

theorem records_of_files {c : Call} {session : SessionId} {member : MemberId} {before : List Event} {q : Request}
    {check : List Heard} (h : c.Files session member before q check) : Call.Records check session q := by
  have hwarranted : q.grant.Warranted (fun p a => ∃ x ∈ check, x.store.Answers p a) q.requester session :=
    Grant.warranted_mono (fun p a _ => answered_of_heard h.holds) (warranted_of_yields h.granted)
  refine ⟨hwarranted, fun st t hsame => ?_⟩
  have hnow : q.grant.Warranted st.Answers q.requester session := by
    refine Grant.warranted_mono (fun p a hp hans => ?_) hwarranted
    obtain ⟨x, hx, hans⟩ := hans
    exact (hsame x hx p hp).trans hans
  obtain ⟨hanswered, -, hiff, -⟩ := entitles st t q.requester session
  rw [hanswered, (hiff q.grant).2 hnow]

/-! ## Stored requests -/

/-- Whoever may file is given the grant that their roles warrant, and nobody else is given one; and every request in
    a stored log shows the grant that its requester was given by the call that filed it, when it was let through. -/
theorem warranted_of_reach :
    (∀ (st : Store) (t : Instant) (actor : MemberId) (session : SessionId),
      ∃ grant, st.Entitles t actor session grant) ∧
    ∀ (R : Rules) (w : World), R.desk = false → w.Reach R → ∀ (session : SessionId) (member : MemberId) (r : Record),
      w.store.Answers (.find session member) (some r) → ∀ (before : List Event) (q : Request) (after : List Event),
      r.events = before ++ .requested q :: after →
      ∃ c check, (∃ p ∈ w.posted, p.call = some c ∧ p.record.session = session ∧ p.record.member = member ∧
          p.record.events = before ++ [.requested q]) ∧
        c.Files session member before q check ∧ Call.Records check session q := by
  refine ⟨fun st t actor session => ⟨_, entitles st t actor session⟩, ?_⟩
  intro R w hR h session member r hr before q after hlog
  obtain ⟨s, hi⟩ := inv_of_reach (kept_true R) h
  have hstored : log (of w.ledger session member) = before ++ .requested q :: after := by
    obtain ⟨k, hk, rfl⟩ := Option.map_eq_some_iff.1 ((Store.answers_find hi.shown).1 hr)
    rw [← hlog]
    exact (hi.balanced.kept _ _ k hk).2.2.symm
  obtain ⟨p, hp, hsession, hmember, hevents, c, r₀, is, hc, hholds, hadds, hr₀⟩ := exists_posting hR hi hstored
  obtain ⟨check, hfiles⟩ := files_of_adds hholds hadds
  have hkey : r₀.session = session ∧ r₀.member = member := by
    rw [← hsession, ← hmember, hadds.added]
    exact ⟨rfl, rfl⟩
  rw [hkey.1, hkey.2, hr₀] at hfiles
  exact ⟨c, check, ⟨p, hp, hc, hsession, hmember, hevents⟩, hfiles, records_of_files hfiles⟩

/-- A mentor of the course files for a mentee and is taken off the course; an auditor who belongs to no course may
    file as well. -/
theorem warranted_of_reach_demoted : ∃ (w : World) (m : Memory) (r : Record) (q : Request) (check : List Heard),
    World.Reach ⟨false, false⟩ w ∧ w.store = .memory m ∧ w.store.Answers (.find 7 1) (some r) ∧
    r.events = [.checkedIn morning] ++ .requested q :: [] ∧ q.requester = 2 ∧ q.grant = ⟨.course, 1⟩ ∧
    (w.store.moment morning).answer (Authority.requestGrant 2 7) = some none ∧
    (∃ grant, w.store.Entitles morning 4 7 grant ∧ grant = some ⟨.system, 1⟩) ∧
    Call.Records check 7 q := by
  obtain ⟨w, hreach, hst⟩ := reach_after (reach_school ⟨false, false⟩)
    [.checkIn 7 1, .request 2 7 1 .late "bus"]
  obtain ⟨hentitled, hfiled⟩ := warranted_of_reach
  let m : Memory := ⟨⟨[(4, .member), (4, .auditor)], [((1, 5), .mentee), ((3, 5), .manager)], [(7, .course 5)]⟩,
    ⟨1, [((7, 1), ⟨1, 2, [.checkedIn morning, .requested ⟨morning, .present, .late, "bus", 2, ⟨.course, 1⟩⟩]⟩)]⟩⟩
  have hreach' : World.Reach ⟨false, false⟩ { w with store := .memory m } := by
    refine .step hreach (.administered ?_)
    rw [hst]
    rfl
  have hlog : (Store.memory m).Answers (.find 7 1) (some (.rehydrate 1 7 1 2
      [.checkedIn morning, .requested ⟨morning, .present, .late, "bus", 2, ⟨.course, 1⟩⟩])) := rfl
  obtain ⟨c, check, -, -, hrecords⟩ := hfiled _ _ rfl hreach' 7 1 _ hlog [.checkedIn morning] _ [] rfl
  obtain ⟨grant, hgrant⟩ := hentitled (.memory m) morning 4 7
  have hgiven : grant = some ⟨.system, 1⟩ := Option.some.inj (hgrant.answered.symm.trans rfl)
  exact ⟨_, m, _, _, check, hreach', rfl, hlog, rfl, rfl, rfl, rfl, ⟨grant, hgrant, hgiven⟩, hrecords⟩

end Rollbook
