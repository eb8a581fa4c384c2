import Rollbook.Proofs.Audit
import Rollbook.Proofs.Run
/-
  Rollbook.Proofs.Review — what a review comes to.

  A review that is neither a manager's nor a supervisor's goes on to compare ranks, as if
  standing above a request gave authority over it. It never does. A grant is given out
  for a rank of at least 1, and whoever stands above that is a manager of the course or a
  supervisor, both of which were looked for before.

  So the outcome depends on the reviewer alone and on whether the request is the
  reviewer's own: it is the same for every grant that was ever given out, under whatever
  roles and for whatever session (`review_of_obtainable`).
-/

namespace Rollbook

open Ladder Plan

/-! ## Looking up -/

namespace Store

def scope (st : Store) (session : SessionId) : Option Scope :=
  match st with
  | .memory m => m.directory.sessionScope session
  | .tables t => t.sessionScope session

def courseRole (st : Store) (member : MemberId) (course : CourseId) : Option CourseRole :=
  match st with
  | .memory m => m.directory.courseRole member course
  | .tables t => t.courseRole member course

def systemRoles (st : Store) (member : MemberId) : List SystemRole :=
  match st with
  | .memory m => m.directory.systemRoles member
  | .tables t => t.rolesOf member

/-- The role in the course that the session belongs to. -/
def roleIn (st : Store) (member : MemberId) (session : SessionId) : Option CourseRole :=
  match st.scope session with
  | some (.course course) => st.courseRole member course
  | _ => none

variable (st : Store)

theorem backend_sessionScope (session : SessionId) :
    st.backend (.sessionScope session) = ⟨.ok (st.scope session), st, []⟩ := by
  cases st <;> rfl

theorem backend_courseRole (member : MemberId) (course : CourseId) :
    st.backend (.courseRole member course) = ⟨.ok (st.courseRole member course), st, []⟩ := by
  cases st <;> rfl

theorem backend_systemRoles (member : MemberId) :
    st.backend (.systemRoles member) = ⟨.ok (st.systemRoles member), st, []⟩ := by
  cases st <;> rfl

variable {st}

theorem answers_sessionScope {session : SessionId} {scope : Option Scope} :
    st.Answers (.sessionScope session) scope ↔ st.scope session = scope := by
  unfold Answers
  rw [backend_sessionScope]
  exact ⟨Except.ok.inj, congrArg Except.ok⟩

theorem answers_courseRole {member : MemberId} {course : CourseId} {role : Option CourseRole} :
    st.Answers (.courseRole member course) role ↔ st.courseRole member course = role := by
  unfold Answers
  rw [backend_courseRole]
  exact ⟨Except.ok.inj, congrArg Except.ok⟩

theorem answers_systemRoles {member : MemberId} {held : List SystemRole} :
    st.Answers (.systemRoles member) held ↔ st.systemRoles member = held := by
  unfold Answers
  rw [backend_systemRoles]
  exact ⟨Except.ok.inj, congrArg Except.ok⟩

theorem roleIn_eq_manager {member : MemberId} {session : SessionId} :
    st.roleIn member session = some .manager ↔
      ∃ course, st.scope session = some (.course course) ∧ st.courseRole member course = some .manager := by
  unfold roleIn
  constructor
  · intro h
    split at h
    · rename_i course hs
      exact ⟨course, hs, h⟩
    · cases h
  · rintro ⟨course, hs, hr⟩
    rw [hs]
    exact hr

/-- Who is empowered, read off the roles. -/
theorem empowered_iff {reviewer requester : MemberId} {session : SessionId} :
    st.Empowered reviewer requester session ↔ st.roleIn reviewer session = some .manager ∨
      (reviewer ≠ requester ∧ (.supervisor ∈ st.systemRoles reviewer ∨ .admin ∈ st.systemRoles reviewer)) := by
  unfold Empowered
  simp only [answers_sessionScope, answers_courseRole, answers_systemRoles, roleIn_eq_manager, exists_eq_left']

end Store

variable {st : Store} {t : Instant}

theorem run_roleInCourseOf (member : MemberId) (session : SessionId) :
    (Authority.roleInCourseOf member session).run Store.backend t st = ⟨.ok (st.roleIn member session), st, []⟩ := by
  refine (run_bind_of_ok ((run_query _).trans (st.backend_sessionScope session)) _).trans ?_
  unfold Store.roleIn
  cases st.scope session with
  | none => rfl
  | some scope =>
    cases scope with
    | course course => exact (run_query _).trans (st.backend_courseRole member course)
    | standalone => rfl

/-! ## What a review comes to -/

namespace ReviewAuthority

/-- The outcome of a review from all that it looks at. -/
def verdict (role : Option CourseRole) (reviewer requester : MemberId) (grant : Grant) (held : List SystemRole) :
    ReviewAuthority :=
  if role = some .manager then .leadManager
  else if reviewer = requester then .selfReview
  else bySystem role grant held

/-- The outcome without a look at the grant. -/
def ruling (role : Option CourseRole) (reviewer requester : MemberId) (held : List SystemRole) : ReviewAuthority :=
  if role = some .manager then .leadManager
  else if reviewer = requester then .selfReview
  else if held.any fun r => atLeast r .supervisor then .systemSupervisor
  else .insufficient

variable {role : Option CourseRole} {reviewer requester : MemberId} {held : List SystemRole}

theorem run_judge (st : Store) (t : Instant) (reviewer requester : MemberId) (grant : Grant) (session : SessionId) :
    (judge reviewer requester grant session).run Store.backend t st =
      ⟨.ok (verdict (st.roleIn reviewer session) reviewer requester grant (st.systemRoles reviewer)), st, []⟩ := by
  refine (run_bind_of_ok (run_roleInCourseOf reviewer session) _).trans ?_
  unfold verdict
  split
  · rfl
  · split
    · rfl
    · refine (run_bind_of_ok ((run_query _).trans (st.backend_systemRoles reviewer)) _).trans ?_
      unfold bySystem
      split
      · rfl
      · rfl

/-- No grant that can be given out makes a difference. -/
theorem verdict_eq_ruling {grant : Grant} (hgrant : 1 ≤ grant.rank) :
    verdict role reviewer requester grant held = ruling role reviewer requester held := by
  unfold verdict ruling
  split
  · rfl
  · rename_i hm
    split
    · rfl
    · unfold bySystem
      split
      · rfl
      · rename_i hs
        exact if_neg (standing_le hm hs hgrant)

theorem ruling_ne_outranks : ruling role reviewer requester held ≠ .outranks := by
  unfold ruling
  split
  · intro h
    cases h
  · split
    · intro h
      cases h
    · split <;> (intro h; cases h)

theorem any_supervisor_iff :
    (held.any fun r => atLeast r .supervisor) = true ↔ .supervisor ∈ held ∨ .admin ∈ held := by
  rw [List.any_eq_true]
  constructor
  · rintro ⟨r, hr, hat⟩
    rcases supervisor_or_admin_of_atLeast hat with rfl | rfl
    · exact Or.inl hr
    · exact Or.inr hr
  · rintro (h | h)
    · exact ⟨_, h, rfl⟩
    · exact ⟨_, h, rfl⟩

theorem allowed_ruling : (ruling role reviewer requester held).allowed = true ↔
    role = some .manager ∨ (reviewer ≠ requester ∧ (.supervisor ∈ held ∨ .admin ∈ held)) := by
  rw [← any_supervisor_iff]
  unfold ruling
  by_cases hm : role = some .manager
  · rw [if_pos hm]
    exact ⟨fun _ => Or.inl hm, fun _ => rfl⟩
  rw [if_neg hm]
  by_cases hself : reviewer = requester
  · rw [if_pos hself]
    constructor
    · intro h
      cases h
    · rintro (h | ⟨hne, -⟩)
      · exact absurd h hm
      · exact absurd hself hne
  rw [if_neg hself]
  by_cases hs : (held.any fun r => atLeast r .supervisor) = true
  · rw [if_pos hs]
    exact ⟨fun _ => Or.inr ⟨hself, hs⟩, fun _ => rfl⟩
  · rw [if_neg hs]
    constructor
    · intro h
      cases h
    · rintro (h | ⟨-, h⟩)
      · exact absurd h hm
      · exact absurd h hs

/-- Another requester makes a difference only by being the reviewer. -/
theorem ruling_congr {requester' : MemberId} (h : reviewer = requester' ↔ reviewer = requester) :
    ruling role reviewer requester' held = ruling role reviewer requester held := by
  unfold ruling
  rw [if_congr h rfl rfl]

end ReviewAuthority

/-! ## Grants that are given out -/

/-- Someone could file a request under the grant in some session, with some roles. -/
def Grant.Obtainable (g : Grant) : Prop :=
  ∃ (st : Store) (t : Instant) (actor : MemberId) (session : SessionId),
    ((Authority.requestGrant actor session).run Store.backend t st).result = .ok (some g)

/-- The same session scope, and the same roles of one member. -/
structure Store.AgreesOn (st st' : Store) (member : MemberId) (session : SessionId) : Prop where
  scope : (st'.backend (.sessionScope session)).result = (st.backend (.sessionScope session)).result
  course : ∀ course, (st'.backend (.courseRole member course)).result = (st.backend (.courseRole member course)).result
  system : (st'.backend (.systemRoles member)).result = (st.backend (.systemRoles member)).result

theorem Grant.one_le_rank {g : Grant} (h : g.Obtainable) : 1 ≤ g.rank := by
  obtain ⟨st, t, actor, session, hrun⟩ := h
  obtain ⟨is, hy⟩ := yields_of_run hrun
  exact Authority.one_le_rank_of_requestGrant hy

namespace Store

variable {st' : Store} {member : MemberId} {session : SessionId}

theorem systemRoles_of_agreesOn (h : st.AgreesOn st' member session) :
    st'.systemRoles member = st.systemRoles member := by
  have hsystem := h.system
  rw [backend_systemRoles, backend_systemRoles] at hsystem
  exact Except.ok.inj hsystem

theorem roleIn_of_agreesOn (h : st.AgreesOn st' member session) :
    st'.roleIn member session = st.roleIn member session := by
  have hscope := h.scope
  rw [backend_sessionScope, backend_sessionScope] at hscope
  have hcourse : st'.courseRole member = st.courseRole member := funext fun course => by
    have hrole := h.course course
    rw [backend_courseRole, backend_courseRole] at hrole
    exact Except.ok.inj hrole
  unfold roleIn
  rw [Except.ok.inj hscope, hcourse]

end Store

/-- A review is allowed to a MANAGER of the session's course, and to someone else than the requester who holds
    SUPERVISOR or ADMIN. Standing above the request is never the reason, and neither the grant nor anybody
    else's roles have a part in it. -/
theorem review_of_obtainable {grant : Grant} (hgrant : grant.Obtainable) (reviewer requester : MemberId)
    (session : SessionId) (st : Store) (t : Instant) :
    ∃ authority,
      ((ReviewAuthority.judge reviewer requester grant session).run Store.backend t st).result = .ok authority ∧
      authority ≠ .outranks ∧
      (authority.allowed = true ↔ st.Empowered reviewer requester session) ∧
      ∀ (grant' : Grant) (requester' : MemberId) (st' : Store) (t' : Instant), grant'.Obtainable →
        (reviewer = requester' ↔ reviewer = requester) → st.AgreesOn st' reviewer session →
        ((ReviewAuthority.judge reviewer requester' grant' session).run Store.backend t' st').result =
          .ok authority := by
  have hrun := ReviewAuthority.run_judge st t reviewer requester grant session
  rw [ReviewAuthority.verdict_eq_ruling (Grant.one_le_rank hgrant)] at hrun
  refine ⟨_, congrArg Reply.result hrun, ReviewAuthority.ruling_ne_outranks, ?_, ?_⟩
  · rw [ReviewAuthority.allowed_ruling, Store.empowered_iff]
  · intro grant' requester' st' t' hgrant' hself hagree
    have hrun' := ReviewAuthority.run_judge st' t' reviewer requester' grant' session
    rw [ReviewAuthority.verdict_eq_ruling (Grant.one_le_rank hgrant'), ReviewAuthority.ruling_congr hself,
      Store.roleIn_of_agreesOn hagree, Store.systemRoles_of_agreesOn hagree] at hrun'
    exact congrArg Reply.result hrun'

/-- The mentor of a course has filed a request. Its manager is taken off the course, and then an auditor of
    the same rank tries to decide on it. -/
theorem review_of_obtainable_auditor : ∃ grant : Grant, grant.Obtainable ∧ ∃ authority,
    ((ReviewAuthority.judge 3 2 grant 7).run Store.backend morning
      (.memory ⟨⟨[(3, .auditor)], [((2, 5), .mentee)], [(7, .course 5)]⟩, .empty⟩)).result = .ok authority ∧
    authority = .insufficient ∧ authority ≠ .outranks := by
  have hgrant : Grant.Obtainable ⟨.course, 1⟩ := ⟨.memory ⟨school, .empty⟩, morning, 2, 7, rfl⟩
  obtain ⟨authority, hrun, hne, -⟩ := review_of_obtainable hgrant 3 2 7
    (.memory ⟨⟨[(3, .auditor)], [((2, 5), .mentee)], [(7, .course 5)]⟩, .empty⟩) morning
  have hinsufficient : authority = .insufficient := Except.ok.inj (hrun.symm.trans rfl)
  exact ⟨_, hgrant, authority, hrun, hinsufficient, hne⟩

end Rollbook
