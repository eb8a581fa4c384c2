import Rollbook.Authority
import Rollbook.Proofs.Plan
/-
  Rollbook.Proofs.Authority — what a grant or a review is judged by.

  Each decision is walked through once: which questions it asks, and what the answers
  must have been for each outcome (`yields_requestGrant`, `yields_judge`). Every grant
  that is given out has a rank of at least 1 (`one_le_rank_of_requestGrant`), and to
  stand strictly above such a grant takes MANAGER in its course or SUPERVISOR. Both of
  these are looked at before, so a review that is allowed is allowed to a manager of
  the session's course, or to someone else than the requester who holds SUPERVISOR or
  ADMIN (`empowered_of_allowed`).
-/

namespace Rollbook

open Ladder Plan

/-- A question to the directory. -/
def Query.IsLookup : Query → Prop
  | .find .. | .append _ | .findAll .. => False
  | _ => True

namespace Authority

/-! ## The role in a session's course -/

/-- What the session's course and the role in it are read from. -/
inductive RoleHeard (member : MemberId) (session : SessionId) : Option CourseRole → List Input → Prop
  | inCourse (course : CourseId) (role : Option CourseRole) :
      RoleHeard member session role
        [.answer (.sessionScope session) (some (.course course)), .answer (.courseRole member course) role]
  | noCourse (scope : Option Scope) (h : ∀ course, scope ≠ some (.course course)) :
      RoleHeard member session none [.answer (.sessionScope session) scope]

theorem yields_roleInCourseOf {member : MemberId} {session : SessionId} {is : List Input}
    {role : Option CourseRole} (h : Yields (roleInCourseOf member session) is role) :
    RoleHeard member session role is := by
  obtain ⟨scope, is₁, is₂, rfl, hs, hk⟩ := yields_bind.1 h
  obtain rfl := yields_query.1 hs
  split at hk
  · rename_i course
    obtain rfl := yields_query.1 hk
    exact .inCourse course role
  · rename_i hno
    obtain ⟨rfl, rfl⟩ := yields_pure.1 hk
    exact .noCourse scope fun course hc => hno course hc

theorem asks_roleInCourseOf {member : MemberId} {session : SessionId} {is : List Input} {q : Query}
    (h : Asks (roleInCourseOf member session) is q) : q.IsLookup := by
  rcases asks_bind.1 h with h | ⟨scope, is₁, is₂, rfl, _, hk⟩
  · obtain ⟨-, rfl⟩ := asks_query.1 h
    trivial
  · split at hk
    · obtain ⟨-, rfl⟩ := asks_query.1 hk
      trivial
    · exact absurd hk not_asks_pure

/-! ## Filing -/

theorem yields_requestGrant {actor : MemberId} {session : SessionId} {is : List Input}
    {grant : Option Grant} (h : Yields (requestGrant actor session) is grant) :
    ∃ role is₁ is₂, is = is₁ ++ is₂ ∧ RoleHeard actor session role is₁ ∧
      ((∃ r, role.filter (fun r => atLeast r .mentor) = some r ∧ is₂ = [] ∧
          grant = some ⟨.course, rank r⟩) ∨
        (role.filter (fun r => atLeast r .mentor) = none ∧ ∃ held,
          is₂ = [.answer (.systemRoles actor) held] ∧
          grant = ((highestRank held).filter fun r => rank SystemRole.operator ≤ r).map
            fun r => ⟨.system, r⟩)) := by
  obtain ⟨role, is₁, is₂, rfl, hr, hk⟩ := yields_bind.1 h
  refine ⟨role, is₁, is₂, rfl, yields_roleInCourseOf hr, ?_⟩
  split at hk
  · rename_i r hf
    obtain ⟨rfl, rfl⟩ := yields_pure.1 hk
    exact Or.inl ⟨r, hf, rfl, rfl⟩
  · rename_i hf
    obtain ⟨held, is₃, is₄, rfl, hh, hg⟩ := yields_bind.1 hk
    obtain rfl := yields_query.1 hh
    obtain ⟨rfl, rfl⟩ := yields_pure.1 hg
    exact Or.inr ⟨hf, held, rfl, rfl⟩

theorem asks_requestGrant {actor : MemberId} {session : SessionId} {is : List Input} {q : Query}
    (h : Asks (requestGrant actor session) is q) : q.IsLookup := by
  rcases asks_bind.1 h with h | ⟨role, is₁, is₂, rfl, _, hk⟩
  · exact asks_roleInCourseOf h
  · split at hk
    · exact absurd hk not_asks_pure
    · rcases asks_bind.1 hk with h | ⟨held, is₃, is₄, rfl, _, hk⟩
      · obtain ⟨-, rfl⟩ := asks_query.1 h
        trivial
      · exact absurd hk not_asks_pure

/-- A grant is never given under the lowest rank of its tier. -/
theorem one_le_rank_of_requestGrant {actor : MemberId} {session : SessionId} {is : List Input}
    {grant : Grant} (h : Yields (requestGrant actor session) is (some grant)) : 1 ≤ grant.rank := by
  obtain ⟨role, is₁, is₂, -, -, ⟨r, hf, -, hg⟩ | ⟨-, held, -, hg⟩⟩ := yields_requestGrant h
  · obtain ⟨-, hr⟩ := Option.filter_eq_some_iff.1 hf
    cases hg
    simpa [atLeast, rank] using hr
  · obtain ⟨r, hf, rfl⟩ := Option.map_eq_some_iff.1 hg.symm
    obtain ⟨-, hr⟩ := Option.filter_eq_some_iff.1 hf
    simpa [rank] using hr

end Authority

namespace ReviewAuthority

/-! ## Reviewing -/

/-- The rank of a reviewer in a tier. -/
def standing (role : Option CourseRole) (held : List SystemRole) : Tier → Option UInt8
  | .course => role.map rank
  | .system => highestRank held

/-- The outcome for a reviewer who neither manages the course nor filed the request. -/
def bySystem (role : Option CourseRole) (grant : Grant) (held : List SystemRole) : ReviewAuthority :=
  if held.any fun r => atLeast r .supervisor then .systemSupervisor
  else if (standing role held grant.tier).any fun r => grant.rank < r then .outranks
  else .insufficient

theorem yields_judge {reviewer requester : MemberId} {grant : Grant} {session : SessionId}
    {is : List Input} {a : ReviewAuthority} (h : Yields (judge reviewer requester grant session) is a) :
    ∃ role is₁ is₂, is = is₁ ++ is₂ ∧ Authority.RoleHeard reviewer session role is₁ ∧
      ((role = some .manager ∧ is₂ = [] ∧ a = .leadManager) ∨
        (role ≠ some .manager ∧ reviewer = requester ∧ is₂ = [] ∧ a = .selfReview) ∨
        (role ≠ some .manager ∧ reviewer ≠ requester ∧ ∃ held,
          is₂ = [.answer (.systemRoles reviewer) held] ∧ a = bySystem role grant held)) := by
  obtain ⟨role, is₁, is₂, rfl, hr, hk⟩ := yields_bind.1 h
  refine ⟨role, is₁, is₂, rfl, Authority.yields_roleInCourseOf hr, ?_⟩
  split at hk
  · rename_i hm
    obtain ⟨rfl, rfl⟩ := yields_pure.1 hk
    exact Or.inl ⟨hm, rfl, rfl⟩
  · rename_i hm
    split at hk
    · rename_i hs
      obtain ⟨rfl, rfl⟩ := yields_pure.1 hk
      exact Or.inr (Or.inl ⟨hm, hs, rfl, rfl⟩)
    · rename_i hs
      obtain ⟨held, is₃, is₄, rfl, hh, hd⟩ := yields_bind.1 hk
      obtain rfl := yields_query.1 hh
      refine Or.inr (Or.inr ⟨hm, hs, held, ?_⟩)
      by_cases ha : (held.any fun r => atLeast r .supervisor) = true
      · rw [if_pos ha] at hd
        obtain ⟨rfl, rfl⟩ := yields_pure.1 hd
        exact ⟨rfl, (if_pos ha).symm⟩
      · rw [if_neg ha] at hd
        obtain ⟨rfl, rfl⟩ := yields_pure.1 hd
        exact ⟨rfl, (if_neg ha).symm⟩

theorem asks_judge {reviewer requester : MemberId} {grant : Grant} {session : SessionId}
    {is : List Input} {q : Query} (h : Asks (judge reviewer requester grant session) is q) :
    q.IsLookup := by
  rcases asks_bind.1 h with h | ⟨role, is₁, is₂, rfl, _, hk⟩
  · exact Authority.asks_roleInCourseOf h
  · split at hk
    · exact absurd hk not_asks_pure
    · split at hk
      · exact absurd hk not_asks_pure
      · rcases asks_bind.1 hk with h | ⟨held, is₃, is₄, rfl, _, hk⟩
        · obtain ⟨-, rfl⟩ := asks_query.1 h
          trivial
        · split at hk <;> exact absurd hk not_asks_pure

/-! ## Outranking -/

theorem supervisor_or_admin_of_atLeast {r : SystemRole} (h : atLeast r .supervisor = true) :
    r = .supervisor ∨ r = .admin := by
  cases r <;> revert h <;> decide

theorem manager_of_one_lt_rank {r : CourseRole} (h : 1 < rank r) : r = .manager := by
  cases r <;> revert h <;> decide

/-- The highest rank is the rank of one of the roles. -/
theorem exists_of_highestRank {R : Type} [Ladder R] {roles : List R} {n : UInt8}
    (h : highestRank roles = some n) : ∃ r ∈ roles, rank r = n := by
  induction roles generalizing n with
  | nil => cases h
  | cons r rs ih =>
    rw [highestRank] at h
    split at h
    · cases h
      exact ⟨r, List.mem_cons_self, rfl⟩
    · rename_i m hm
      cases h
      split
      · exact ⟨r, List.mem_cons_self, rfl⟩
      · obtain ⟨r', hr', he⟩ := ih hm
        exact ⟨r', List.mem_cons_of_mem _ hr', he⟩

/-- Nobody stands strictly above a grant who is neither a manager nor a supervisor. -/
theorem standing_le {role : Option CourseRole} {grant : Grant} {held : List SystemRole}
    (hrole : role ≠ some .manager) (hheld : ¬ (held.any fun r => atLeast r .supervisor) = true)
    (hgrant : 1 ≤ grant.rank) : ¬ ((standing role held grant.tier).any fun r => grant.rank < r) = true := by
  intro h
  cases hs : standing role held grant.tier with
  | none => rw [hs] at h; cases h
  | some n =>
    rw [hs] at h
    have hlt : 1 < n := UInt8.lt_of_le_of_lt hgrant (of_decide_eq_true h)
    cases ht : grant.tier with
    | course =>
      rw [ht] at hs
      obtain ⟨r, rfl, rfl⟩ := Option.map_eq_some_iff.1 hs
      exact hrole (by rw [manager_of_one_lt_rank hlt])
    | system =>
      rw [ht] at hs
      obtain ⟨r, hr, rfl⟩ := exists_of_highestRank hs
      refine hheld (List.any_eq_true.2 ⟨r, hr, ?_⟩)
      cases r <;> revert hlt <;> decide

/-- What a review that is allowed has heard: the reviewer manages the session's course, or did not
    file the request and holds SUPERVISOR or ADMIN. -/
theorem empowered_of_allowed {reviewer requester : MemberId} {grant : Grant} {session : SessionId}
    {is : List Input} {a : ReviewAuthority} (h : Yields (judge reviewer requester grant session) is a)
    (ha : a.allowed = true) (hgrant : 1 ≤ grant.rank) :
    (∃ course, .answer (.sessionScope session) (some (.course course)) ∈ is ∧
        .answer (.courseRole reviewer course) (some .manager) ∈ is) ∨
      (reviewer ≠ requester ∧ ∃ held : List SystemRole, .answer (.systemRoles reviewer) held ∈ is ∧
        (.supervisor ∈ held ∨ .admin ∈ held)) := by
  obtain ⟨role, is₁, is₂, rfl, hr, ⟨rfl, rfl, rfl⟩ | ⟨-, -, -, rfl⟩ | ⟨hm, hne, held, rfl, rfl⟩⟩ :=
    yields_judge h
  · cases hr with
    | inCourse course => exact Or.inl ⟨course, by simp, by simp⟩
  · cases ha
  · refine Or.inr ⟨hne, held, by simp, ?_⟩
    by_cases hs : (held.any fun r => atLeast r .supervisor) = true
    · obtain ⟨r, hr, hat⟩ := List.any_eq_true.1 hs
      rcases supervisor_or_admin_of_atLeast hat with rfl | rfl
      · exact Or.inl hr
      · exact Or.inr hr
    · have hi : bySystem role grant held = .insufficient := by
        unfold bySystem
        rw [if_neg hs, if_neg (standing_le hm hs hgrant)]
      rw [hi] at ha
      cases ha

end ReviewAuthority

end Rollbook
