import Rollbook.Proofs.Filing
import Rollbook.Proofs.Rolls
/-
  Rollbook.Proofs.Promotion — whoever rises loses nothing.

  Who may attend, who may file and who may review is decided by a few questions, each
  returning as soon as it can: a reviewer who manages the course is not asked whether
  the request is their own, a mentor is not asked for system roles. However these
  follow on each other, all that counts in the end is where a session belongs, the role
  in its course and the highest rank among the system roles (`topRank`), and each of
  the last two only ever speaks for a permission.

  - Where everybody's roles are as high or higher (`Store.Promoted`), whatever was
    permitted still is, review under any grant included, be it one that nobody was
    ever given.
  - So a role that is added or raised takes no permission from anybody
    (`Store.Raise`), in memory or in tables.
  - System roles of one highest rank cannot be told apart by any decision (`Store.Level`):
    which of the three peers somebody is, or whether somebody is a MEMBER or holds no role
    at all (`Store.Interchangeable`).

  The three are put together in `permitted_of_promoted`.
-/

namespace Rollbook

open Ladder Plan

/-! ## The top rank -/

namespace Ladder

variable {L : Type} [Ladder L] {roles roles' : List L}

theorem topRank_mono (h : ∀ r ∈ roles, r ∈ roles') : topRank roles ≤ topRank roles' :=
  topRank_le fun r hr => le_topRank (h r hr)

theorem any_above_iff {n : UInt8} : ((highestRank roles).any fun r => n < r) = true ↔ n < topRank roles := by
  unfold topRank
  cases highestRank roles with
  | none => exact iff_of_false (by simp) (UInt8.not_lt.2 UInt8.zero_le)
  | some m => exact decide_eq_true_iff

end Ladder

/-! ## What decisions look at -/

section

variable {role role' : Option CourseRole} {held held' : List SystemRole}

/-- The role in a course is kept or becomes a higher one. -/
def CourseRole.Rises (role role' : Option CourseRole) : Prop :=
  ∀ r, role = some r → ∃ r', role' = some r' ∧ rank r ≤ rank r'

theorem CourseRole.rises_refl : CourseRole.Rises role role := fun r hr => ⟨r, hr, UInt8.le_refl _⟩

theorem CourseRole.rises_trans {role'' : Option CourseRole} (h : CourseRole.Rises role role')
    (h' : CourseRole.Rises role' role'') : CourseRole.Rises role role'' := by
  intro r hr
  obtain ⟨r', hr', hle⟩ := h r hr
  obtain ⟨r'', hr'', hle'⟩ := h' r' hr'
  exact ⟨r'', hr'', UInt8.le_trans hle hle'⟩

theorem CourseRole.manager_of_rises (h : CourseRole.Rises role role') (hm : role = some .manager) :
    role' = some .manager := by
  obtain ⟨r', rfl, hle⟩ := h _ hm
  rw [ReviewAuthority.manager_of_one_lt_rank (UInt8.lt_of_lt_of_le (by decide : 1 < rank CourseRole.manager) hle)]

namespace Authority

theorem isSome_grantOf_iff : (grantOf role held).isSome = true ↔
    (∃ r, role = some r ∧ 1 ≤ rank r) ∨ 1 ≤ topRank held := by
  rw [isSome_grantOf, Bool.or_eq_true, any_atLeast_iff (by decide : 0 < rank SystemRole.operator), Option.any_eq_true]
  refine or_congr_left (exists_congr fun r => and_congr_right fun _ => ?_)
  exact decide_eq_true_iff

theorem isSome_grantOf_mono (hrole : CourseRole.Rises role role') (hheld : topRank held ≤ topRank held')
    (h : (grantOf role held).isSome = true) : (grantOf role' held').isSome = true := by
  rw [isSome_grantOf_iff] at h ⊢
  rcases h with ⟨r, hr, hle⟩ | hle
  · obtain ⟨r', hr', hrise⟩ := hrole r hr
    exact Or.inl ⟨r', hr', UInt8.le_trans hle hrise⟩
  · exact Or.inr (UInt8.le_trans hle hheld)

theorem grantOf_congr (h : topRank held' = topRank held) : grantOf role held' = grantOf role held := by
  unfold grantOf
  rw [systemGrant_eq, systemGrant_eq, h]

end Authority

namespace ReviewAuthority

variable {reviewer requester : MemberId} {grant : Grant}

/-- The rank in the tier of the grant is above it. -/
def Overrules (role : Option CourseRole) (top : UInt8) (grant : Grant) : Prop :=
  match grant.tier with
  | .course => ∃ r, role = some r ∧ grant.rank < rank r
  | .system => grant.rank < top

theorem any_standing_iff :
    ((standing role held grant.tier).any fun r => grant.rank < r) = true ↔ Overrules role (topRank held) grant := by
  unfold standing Overrules
  cases grant.tier with
  | course =>
    dsimp only
    rw [Option.any_map, Option.any_eq_true]
    exact exists_congr fun r => and_congr_right fun _ => decide_eq_true_iff
  | system => exact any_above_iff

theorem overrules_mono (hrole : CourseRole.Rises role role') {n n' : UInt8} (hn : n ≤ n')
    (h : Overrules role n grant) : Overrules role' n' grant := by
  unfold Overrules at h ⊢
  cases htier : grant.tier with
  | course =>
    rw [htier] at h
    obtain ⟨r, hr, hlt⟩ := h
    obtain ⟨r', hr', hle⟩ := hrole r hr
    exact ⟨r', hr', UInt8.lt_of_lt_of_le hlt hle⟩
  | system =>
    rw [htier] at h
    exact UInt8.lt_of_lt_of_le h hn

theorem any_supervisor_iff_topRank : (held.any fun r => atLeast r .supervisor) = true ↔ 2 ≤ topRank held :=
  any_atLeast_iff (by decide : 0 < rank SystemRole.supervisor)

theorem allowed_verdict : (verdict role reviewer requester grant held).allowed = true ↔
    role = some .manager ∨ (reviewer ≠ requester ∧ (2 ≤ topRank held ∨ Overrules role (topRank held) grant)) := by
  rw [← any_supervisor_iff_topRank, ← any_standing_iff]
  unfold verdict
  by_cases hm : role = some .manager
  · rw [if_pos hm]
    exact iff_of_true rfl (Or.inl hm)
  rw [if_neg hm, or_iff_right hm]
  by_cases hself : reviewer = requester
  · rw [if_pos hself]
    exact iff_of_false (fun h => nomatch h) fun h => h.1 hself
  rw [if_neg hself, and_iff_right hself]
  unfold bySystem
  by_cases hs : (held.any fun r => atLeast r .supervisor) = true
  · rw [if_pos hs]
    exact iff_of_true rfl (Or.inl hs)
  rw [if_neg hs, or_iff_right hs]
  by_cases ho : ((standing role held grant.tier).any fun r => grant.rank < r) = true
  · rw [if_pos ho]
    exact iff_of_true rfl ho
  · rw [if_neg ho]
    exact iff_of_false (fun h => nomatch h) ho

theorem allowed_verdict_mono (hrole : CourseRole.Rises role role') (hheld : topRank held ≤ topRank held')
    (h : (verdict role reviewer requester grant held).allowed = true) :
    (verdict role' reviewer requester grant held').allowed = true := by
  rw [allowed_verdict] at h ⊢
  rcases h with hm | ⟨hself, hs | ho⟩
  · exact Or.inl (CourseRole.manager_of_rises hrole hm)
  · exact Or.inr ⟨hself, Or.inl (UInt8.le_trans hs hheld)⟩
  · exact Or.inr ⟨hself, Or.inr (overrules_mono hrole hheld ho)⟩

theorem verdict_congr (h : topRank held' = topRank held) :
    verdict role reviewer requester grant held' = verdict role reviewer requester grant held := by
  have hs : (held'.any fun r => atLeast r .supervisor) = true ↔ (held.any fun r => atLeast r .supervisor) = true := by
    rw [any_supervisor_iff_topRank, any_supervisor_iff_topRank, h]
  have ho : ((standing role held' grant.tier).any fun r => grant.rank < r) = true ↔
      ((standing role held grant.tier).any fun r => grant.rank < r) = true := by
    rw [any_standing_iff, any_standing_iff, h]
  unfold verdict bySystem
  rw [if_congr hs rfl (if_congr ho rfl rfl)]

end ReviewAuthority

end

/-! ## Permissions -/

/-- What somebody may be permitted to do. -/
inductive Permission where
  | attend (member : MemberId) (session : SessionId)
  | file (actor : MemberId) (session : SessionId)
  | review (reviewer requester : MemberId) (grant : Grant) (session : SessionId)

/-- How it is asked for. -/
def Permission.plan : Permission → Plan Bool
  | .attend member session => Authority.isSessionMember member session
  | .file actor session => do
    let grant ← Authority.requestGrant actor session
    return grant.isSome
  | .review reviewer requester grant session => do
    let authority ← ReviewAuthority.judge reviewer requester grant session
    return authority.allowed

namespace Store

variable {st st' st'' : Store} {t t' : Instant} {member : MemberId} {session : SessionId}

/-- The store says yes. -/
def Permits (st : Store) (t : Instant) (p : Permission) : Prop := (st.moment t).answer p.plan = some true

def attends (st : Store) (member : MemberId) (session : SessionId) : Bool :=
  match st.scope session with
  | some (.course course) => (st.courseRole member course).isSome
  | some .standalone => true
  | none => false

theorem run_isSessionMember (st : Store) (t : Instant) (member : MemberId) (session : SessionId) :
    (Authority.isSessionMember member session).run Store.backend t st = ⟨.ok (st.attends member session), st, []⟩ := by
  refine (run_bind_of_ok ((run_query _).trans (st.backend_sessionScope session)) _).trans ?_
  unfold attends
  cases st.scope session with
  | none => rfl
  | some scope =>
    cases scope with
    | course course => exact run_bind_of_ok ((run_query _).trans (st.backend_courseRole member course)) _
    | standalone => rfl

/-- What a store says, from the roles and sessions that it has. -/
def grants (st : Store) : Permission → Bool
  | .attend member session => st.attends member session
  | .file actor session => (Authority.grantOf (st.roleIn actor session) (st.systemRoles actor)).isSome
  | .review reviewer requester grant session =>
    (ReviewAuthority.verdict (st.roleIn reviewer session) reviewer requester grant (st.systemRoles reviewer)).allowed

theorem permits_iff {p : Permission} : st.Permits t p ↔ st.grants p = true := by
  have hanswer : (st.moment t).answer p.plan = some (st.grants p) := by
    cases p with
    | attend member session => exact answer_of_run (run_isSessionMember st t member session)
    | file actor session => exact answer_of_run (run_bind_of_ok (run_requestGrant st t actor session) _)
    | review reviewer requester grant session =>
      exact answer_of_run (run_bind_of_ok (ReviewAuthority.run_judge st t reviewer requester grant session) _)
  unfold Permits
  rw [hanswer, Option.some_inj]

/-! ### Promotion -/

/-- Sessions belong where they did, and nobody's role in a course or highest system role is lower than it was. -/
structure Promoted (st st' : Store) : Prop where
  scope : ∀ session, st'.scope session = st.scope session
  course : ∀ member course, CourseRole.Rises (st.courseRole member course) (st'.courseRole member course)
  system : ∀ member, topRank (st.systemRoles member) ≤ topRank (st'.systemRoles member)

theorem promoted_refl (st : Store) : st.Promoted st :=
  ⟨fun _ => rfl, fun _ _ => CourseRole.rises_refl, fun _ => UInt8.le_refl _⟩

theorem promoted_trans (h : st.Promoted st') (h' : st'.Promoted st'') : st.Promoted st'' :=
  ⟨fun session => (h'.scope session).trans (h.scope session),
    fun member course => CourseRole.rises_trans (h.course member course) (h'.course member course),
    fun member => UInt8.le_trans (h.system member) (h'.system member)⟩

theorem roleIn_of_promoted (h : st.Promoted st') :
    CourseRole.Rises (st.roleIn member session) (st'.roleIn member session) := by
  unfold roleIn
  rw [h.scope]
  split
  · exact h.course member _
  · exact CourseRole.rises_refl

theorem attends_of_promoted (h : st.Promoted st') (ha : st.attends member session = true) :
    st'.attends member session = true := by
  unfold attends at ha ⊢
  rw [h.scope]
  split
  · rename_i course hscope
    rw [hscope] at ha
    obtain ⟨r, hr⟩ := Option.isSome_iff_exists.1 ha
    obtain ⟨r', hr', -⟩ := h.course member course r hr
    rw [hr']
    rfl
  · rfl
  · rename_i hscope
    rw [hscope] at ha
    cases ha

theorem grants_of_promoted (h : st.Promoted st') {p : Permission} (hp : st.grants p = true) : st'.grants p = true := by
  cases p with
  | attend member session => exact attends_of_promoted h hp
  | file actor session => exact Authority.isSome_grantOf_mono (roleIn_of_promoted h) (h.system actor) hp
  | review reviewer requester grant session =>
    exact ReviewAuthority.allowed_verdict_mono (roleIn_of_promoted h) (h.system reviewer) hp

/-! ### Single roles -/

/-- Somebody is given a system role, or a first or a higher role in a course. -/
inductive Raise : Store → Store → Prop
  | grant (m : Memory) (member : MemberId) (role : SystemRole) :
      Raise (.memory m) (.memory { m with directory := m.directory.grant member role })
  | assign (m : Memory) (member : MemberId) (course : CourseId) (role : CourseRole) :
      CourseRole.Rises (m.directory.courseRole member course) (some role) →
      Raise (.memory m) (.memory { m with directory := m.directory.assign member course role })
  | grantRow {t t' : Tables} (member : MemberId) (role : SystemRole) : t.grant member role = .ok t' →
      Raise (.tables t) (.tables t')
  | assignRow {t t' : Tables} (member : MemberId) (course : CourseId) (role : CourseRole) :
      CourseRole.Rises (t.courseRole member course) (some role) → t.assign member course role = .ok t' →
      Raise (.tables t) (.tables t')

theorem promoted_grant {role : SystemRole} (h : st'.directory = st.directory.grant member role) : st.Promoted st' := by
  have hkept : st'.directory.sessions = st.directory.sessions ∧ st'.directory.course = st.directory.course ∧
      ∀ p ∈ st.directory.system, p ∈ st'.directory.system := by
    rw [h]
    unfold Directory.grant
    split
    · exact ⟨rfl, rfl, fun p hp => hp⟩
    · exact ⟨rfl, rfl, fun p hp => List.mem_append_left _ hp⟩
  obtain ⟨hsessions, hcourse, hsystem⟩ := hkept
  refine ⟨fun session => ?_, fun member course => ?_, fun member => ?_⟩
  · rw [scope_eq, scope_eq, Directory.sessionScope, hsessions]
    rfl
  · rw [courseRole_eq, courseRole_eq, Directory.courseRole, Directory.courseRole, hcourse]
    exact CourseRole.rises_refl
  · rw [systemRoles_eq, systemRoles_eq]
    refine topRank_mono fun r hr => ?_
    obtain ⟨p, hp, hin⟩ := List.mem_filterMap.1 hr
    exact List.mem_filterMap.2 ⟨p, hsystem p hp, hin⟩

theorem promoted_assign {course : CourseId} {role : CourseRole}
    (hrise : CourseRole.Rises (st.courseRole member course) (some role))
    (h : st'.directory = st.directory.assign member course role) : st.Promoted st' := by
  refine ⟨fun session => ?_, fun member' course' => ?_, fun member' => ?_⟩
  · rw [scope_eq, scope_eq, h]
    rfl
  · have hput : st'.courseRole member' course' =
        if (member', course') == (member, course) then some role else st.courseRole member' course' := by
      rw [courseRole_eq, courseRole_eq, h]
      exact Keyed.lookup_put ..
    rw [hput]
    split
    · rename_i hkey
      cases eq_of_beq hkey
      exact hrise
    · exact CourseRole.rises_refl
  · rw [systemRoles_eq, systemRoles_eq, h]
    exact UInt8.le_refl _

theorem promoted_raise (h : Raise st st') : st.Promoted st' := by
  cases h with
  | grant m member role => exact promoted_grant rfl
  | assign m member course role hrise => exact promoted_assign hrise rfl
  | grantRow member role hgrant => exact promoted_grant (directory_grant hgrant)
  | assignRow member course role hrise hassign => exact promoted_assign hrise (directory_assign hassign)

theorem promoted_of_raises (h : Relation.ReflTransGen Raise st st') : st.Promoted st' := by
  induction h with
  | refl => exact promoted_refl st
  | tail _ hraise ih => exact promoted_trans ih (promoted_raise hraise)

end Store

/-! ### Interchangeable roles -/

/-- What a role counts for: MEMBER for nothing, and the three peers of rank 1 for the same. -/
def SystemRole.counted : SystemRole → Option SystemRole
  | .member => none
  | .operator | .registrar | .auditor => some .operator
  | .supervisor => some .supervisor
  | .admin => some .admin

namespace SystemRole

variable {held held' : List SystemRole}

theorem rank_of_counted {r r' : SystemRole} (h : r.counted = some r') : rank r = rank r' := by
  cases r <;> cases h
  all_goals rfl

theorem rank_of_not_counted {r : SystemRole} (h : r.counted = none) : rank r = 0 := by
  cases r <;> cases h
  rfl

theorem topRank_of_counted (h : ∀ r ∈ held.filterMap counted, r ∈ held'.filterMap counted) :
    topRank held ≤ topRank held' := by
  refine topRank_le fun r hr => ?_
  cases hc : r.counted with
  | none =>
    rw [rank_of_not_counted hc]
    exact UInt8.zero_le
  | some c =>
    obtain ⟨r', hr', hc'⟩ := List.mem_filterMap.1 (h c (List.mem_filterMap.2 ⟨r, hr, hc⟩))
    rw [rank_of_counted hc, ← rank_of_counted hc']
    exact le_topRank hr'

end SystemRole

namespace Store

variable {st st' : Store} {t t' : Instant} {member : MemberId} {session : SessionId}

/-- Sessions, course roles and highest system ranks are the same. -/
structure Level (st st' : Store) : Prop where
  scope : ∀ session, st'.scope session = st.scope session
  course : ∀ member course, st'.courseRole member course = st.courseRole member course
  system : ∀ member, topRank (st'.systemRoles member) = topRank (st.systemRoles member)

/-- The same sessions, the same course roles, and system roles that count for the same. -/
structure Interchangeable (st st' : Store) : Prop where
  scope : ∀ session, st'.scope session = st.scope session
  course : ∀ member course, st'.courseRole member course = st.courseRole member course
  system : ∀ member role, role ∈ (st'.systemRoles member).filterMap SystemRole.counted ↔
    role ∈ (st.systemRoles member).filterMap SystemRole.counted

/-- All decisions are the same: who attends, under which grant who files, and what each reviewer is to each request. -/
structure SameDecisions (st st' : Store) (t t' : Instant) : Prop where
  attend : ∀ member session, (st'.moment t').answer (Authority.isSessionMember member session) =
    (st.moment t).answer (Authority.isSessionMember member session)
  file : ∀ actor session, (st'.moment t').answer (Authority.requestGrant actor session) =
    (st.moment t).answer (Authority.requestGrant actor session)
  review : ∀ reviewer requester grant session,
    (st'.moment t').answer (ReviewAuthority.judge reviewer requester grant session) =
      (st.moment t).answer (ReviewAuthority.judge reviewer requester grant session)

theorem level_of_interchangeable (h : st.Interchangeable st') : st.Level st' :=
  ⟨h.scope, h.course, fun member => UInt8.le_antisymm (SystemRole.topRank_of_counted fun r => (h.system member r).1)
    (SystemRole.topRank_of_counted fun r => (h.system member r).2)⟩

theorem roleIn_of_level (h : st.Level st') : st'.roleIn member session = st.roleIn member session := by
  unfold roleIn
  rw [h.scope, funext (h.course member)]

theorem sameDecisions_of_level (h : st.Level st') (t t' : Instant) : st.SameDecisions st' t t' := by
  refine ⟨fun member session => ?_, fun actor session => ?_, fun reviewer requester grant session => ?_⟩
  · rw [answer_of_run (run_isSessionMember st t member session),
      answer_of_run (run_isSessionMember st' t' member session)]
    unfold attends
    rw [h.scope, funext (h.course member)]
  · rw [answer_of_run (run_requestGrant st t actor session), answer_of_run (run_requestGrant st' t' actor session),
      roleIn_of_level h, Authority.grantOf_congr (h.system actor)]
  · rw [answer_of_run (ReviewAuthority.run_judge st t reviewer requester grant session),
      answer_of_run (ReviewAuthority.run_judge st' t' reviewer requester grant session),
      roleIn_of_level h, ReviewAuthority.verdict_congr (h.system reviewer)]

end Store

/-- Whatever is permitted is still permitted when roles are as high or higher, as they are after any roles were added or
    raised. Of system roles only the highest rank is looked at, so no decision tells the peers of rank 1 from each other
    or MEMBER from no role. -/
theorem permitted_of_promoted :
    (∀ st st' : Store, st.Promoted st' → ∀ (p : Permission) (t t' : Instant), st.Permits t p → st'.Permits t' p) ∧
    (∀ st st' : Store, Relation.ReflTransGen Store.Raise st st' →
      ∀ (p : Permission) (t t' : Instant), st.Permits t p → st'.Permits t' p) ∧
    (∀ st st' : Store, st.Level st' → ∀ t t' : Instant, st.SameDecisions st' t t') ∧
    (∀ st st' : Store, st.Interchangeable st' → ∀ t t' : Instant, st.SameDecisions st' t t') := by
  have hpromoted : ∀ st st' : Store, st.Promoted st' →
      ∀ (p : Permission) (t t' : Instant), st.Permits t p → st'.Permits t' p := fun st st' h p t t' hp =>
    Store.permits_iff.2 (Store.grants_of_promoted h (Store.permits_iff.1 hp))
  exact ⟨hpromoted, fun st st' h => hpromoted st st' (Store.promoted_of_raises h),
    fun st st' h => Store.sameDecisions_of_level h,
    fun st st' h => Store.sameDecisions_of_level (Store.level_of_interchangeable h)⟩

/-- A mentor of a course, and somebody who belongs to none and has the system roles. -/
def campus (role : CourseRole) (held : List SystemRole) : Store :=
  .memory ⟨⟨held.map fun r => (4, r), [((1, 5), .mentee), ((2, 5), role)], [(7, .course 5)]⟩, .empty⟩

theorem systemRoles_campus (role : CourseRole) (held : List SystemRole) (member : MemberId) :
    (campus role held).systemRoles member = if 4 = member then held else [] := by
  show (held.map fun r => ((4 : MemberId), r)).filterMap _ = _
  rw [List.filterMap_map]
  split
  · rename_i hmember
    rw [← hmember]
    exact List.filterMap_some
  · rename_i hmember
    exact List.filterMap_eq_nil_iff.2 fun r _ => if_neg hmember

/-- A mentor who becomes the manager may still file, and an operator who is made a supervisor instead may still review a
    request of rank 0. Roles that are added to tables one at a time take nothing from an auditor. A supervisor need not
    be an operator as well, and a registrar who is a MEMBER might be an operator. -/
theorem permitted_of_promoted_campus :
    ((campus .mentor [.operator]).Promoted (campus .manager [.supervisor]) ∧
      (campus .manager [.supervisor]).Permits morning (.file 2 7) ∧
      (campus .manager [.supervisor]).Permits morning (.review 4 2 ⟨.system, 0⟩ 7)) ∧
    (∃ t : Tables, Relation.ReflTransGen Store.Raise (.tables faculty) (.tables t) ∧ t.courseRole 1 1 = some .manager ∧
      t.rolesOf 1 = [.auditor, .member] ∧ (Store.tables t).Permits morning (.file 1 2)) ∧
    ((campus .mentor [.operator, .supervisor]).Level (campus .mentor [.supervisor]) ∧
      (campus .mentor [.operator, .supervisor]).SameDecisions (campus .mentor [.supervisor]) morning morning) ∧
    (campus .mentor [.operator]).Interchangeable (campus .mentor [.registrar, .member]) ∧
    (campus .mentor [.operator]).SameDecisions (campus .mentor [.registrar, .member]) morning morning := by
  obtain ⟨hpromoted, hraised, hlevel, hsame⟩ := permitted_of_promoted
  have hup : (campus .mentor [.operator]).Promoted (campus .manager [.supervisor]) := by
    have hrise : CourseRole.Rises ((campus .mentor [.operator]).courseRole 2 5) (some .manager) :=
      fun r hr => ⟨.manager, rfl, by cases hr; decide⟩
    have hrole : (campus .mentor [.operator]).Promoted (campus .manager [.operator]) := Store.promoted_assign hrise rfl
    refine Store.promoted_trans hrole ⟨fun _ => rfl, fun _ _ => CourseRole.rises_refl, fun member => ?_⟩
    rw [systemRoles_campus, systemRoles_campus]
    split <;> decide
  have hgrant : Store.Raise (.tables faculty) (.tables { faculty with systemRoles := [(1, .auditor), (1, .member)] }) :=
    .grantRow 1 .member rfl
  have hassign := Relation.ReflTransGen.single hgrant |>.tail
    (Store.Raise.assignRow 1 1 .manager (fun r hr => ⟨.manager, rfl, by cases hr; decide⟩) rfl)
  have htop : (campus .mentor [.operator, .supervisor]).Level (campus .mentor [.supervisor]) := by
    refine ⟨fun _ => rfl, fun _ _ => rfl, fun member => ?_⟩
    rw [systemRoles_campus, systemRoles_campus]
    split <;> rfl
  have heven : (campus .mentor [.operator]).Interchangeable (campus .mentor [.registrar, .member]) := by
    refine ⟨fun _ => rfl, fun _ _ => rfl, fun member role => ?_⟩
    rw [systemRoles_campus, systemRoles_campus]
    split <;> rfl
  exact ⟨⟨hup, hpromoted _ _ hup _ morning morning rfl, hpromoted _ _ hup _ morning morning rfl⟩,
    ⟨_, hassign, rfl, rfl, hraised _ _ hassign _ morning morning rfl⟩, ⟨htop, hlevel _ _ htop morning morning⟩,
    heven, hsame _ _ heven morning morning⟩

end Rollbook
