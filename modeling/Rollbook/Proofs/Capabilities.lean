import Rollbook.Proofs.Filing
/-
  Rollbook.Proofs.Capabilities — the checks of roles agree with one another.

  A check asks a directory for the roles that somebody holds and compares them: with one
  role, with a list of roles, or with a rank. The two ladders have the same three checks
  (`Checks`), and on either of them each can be said in terms of the others: to hold a
  role or a higher one is to hold a role that implies it, to have a highest rank that is
  no lower, or to hold one of the roles above it (`Checks.Agree`).

  The checks of a session are those of its course. In a session that stands alone OPERATOR
  or above takes the place of every course role, so that whoever passes a check there may
  attend, but need not have a role in any course.

  Nothing is assumed of the directory but that looking into it changes nothing: it may
  hold any roles and sessions, and it may fail (`concordant_of_calm`).
-/

namespace Rollbook

open Ladder Plan

variable {σ α : Type}

/-! ## Roles that imply a role -/

namespace Ladder

variable {L : Type} [Ladder L] {roles : List L} {minimum : L}

/-- Every role of the ladder is listed. -/
def Listed (L : Type) [Ladder L] : Prop := ∀ r : L, r ∈ (Labelled.all : List L)

theorem listed_systemRole : Listed SystemRole := by
  intro r
  cases r <;> decide

theorem listed_courseRole : Listed CourseRole := by
  intro r
  cases r <;> decide

theorem mem_implied (hl : Listed L) {r : L} : minimum ∈ implied r ↔ atLeast r minimum = true :=
  List.mem_filter.trans (and_iff_right (hl minimum))

/-- The roles that imply `minimum`. -/
def implying [DecidableEq L] (minimum : L) : List L := (Labelled.all : List L).filter fun r => minimum ∈ implied r

theorem mem_implying [DecidableEq L] (hl : Listed L) {r : L} : r ∈ implying minimum ↔ atLeast r minimum = true := by
  unfold implying
  rw [List.mem_filter, and_iff_right (hl r), decide_eq_true_iff, mem_implied hl]

theorem atLeast_self (r : L) : atLeast r r = true := decide_eq_true (UInt8.le_refl _)

/-- Some role is as high as `minimum` when the highest rank is. -/
theorem any_atLeast_iff_highestRank :
    (roles.any fun r => atLeast r minimum) = true ↔ ∃ n, highestRank roles = some n ∧ rank minimum ≤ n := by
  rw [List.any_eq_true]
  constructor
  · rintro ⟨r, hr, hat⟩
    obtain ⟨n, hn⟩ := exists_highestRank_of_mem hr
    exact ⟨n, hn, UInt8.le_trans (of_decide_eq_true hat) (le_of_highestRank hn r hr)⟩
  · rintro ⟨n, hn, hle⟩
    obtain ⟨r, hr, rfl⟩ := ReviewAuthority.exists_of_highestRank hn
    exact ⟨r, hr, decide_eq_true hle⟩

end Ladder

/-! ## The checks of one ladder -/

/-- What is answered about somebody's roles: those that are held, and the three checks of them. -/
structure Checks (L : Type) where
  held : Option (List L)
  exact : L → Option Bool
  any : List L → Option Bool
  orHigher : L → Option Bool

namespace Checks

variable {L : Type} [Ladder L] [DecidableEq L]

/-- The checks say the same of the roles that are held. -/
structure Agree (c : Checks L) : Prop where
  /-- Where it can be told which roles are held, every check has an answer. -/
  answered : c.held.isSome = true → (∀ r, (c.exact r).isSome = true) ∧ (∀ roles, (c.any roles).isSome = true) ∧
    ∀ minimum, (c.orHigher minimum).isSome = true
  implied : ∀ minimum, c.orHigher minimum = some true ↔
    ∃ roles, c.held = some roles ∧ ∃ r ∈ roles, minimum ∈ Ladder.implied r
  ranked : ∀ minimum, c.orHigher minimum = some true ↔
    ∃ roles, c.held = some roles ∧ ∃ n, highestRank roles = some n ∧ rank minimum ≤ n
  listed : ∀ minimum, c.orHigher minimum = c.any (implying minimum)
  disjoined : ∀ roles, c.any roles = some true ↔ ∃ r ∈ roles, c.exact r = some true
  orHigher_of_exact : ∀ r, c.exact r = some true → c.orHigher r = some true

/-- The checks are made of the roles that are held. Nobody need be asked about an empty list. -/
structure Reads (c : Checks L) : Prop where
  exact : ∀ r, c.exact r = c.held.map fun roles => decide (r ∈ roles)
  any : ∀ roles, c.any roles = c.held.map (fun held => decide (∃ r ∈ roles, r ∈ held)) ∨
    roles = [] ∧ c.any roles = some false
  orHigher : ∀ minimum, c.orHigher minimum = c.held.map fun roles => roles.any fun r => atLeast r minimum

variable {c : Checks L}

theorem exact_iff (h : c.Reads) {r : L} : c.exact r = some true ↔ ∃ roles, c.held = some roles ∧ r ∈ roles := by
  rw [h.exact, Option.map_eq_some_iff]
  exact exists_congr fun roles => and_congr_right fun _ => decide_eq_true_iff

theorem orHigher_iff (h : c.Reads) {minimum : L} : c.orHigher minimum = some true ↔
    ∃ roles, c.held = some roles ∧ (roles.any fun r => atLeast r minimum) = true := by
  rw [h.orHigher, Option.map_eq_some_iff]

theorem any_iff (h : c.Reads) {roles : List L} :
    c.any roles = some true ↔ ∃ held, c.held = some held ∧ ∃ r ∈ roles, r ∈ held := by
  rcases h.any roles with hany | ⟨rfl, hany⟩
  · rw [hany, Option.map_eq_some_iff]
    exact exists_congr fun held => and_congr_right fun _ => decide_eq_true_iff
  · rw [hany]
    refine iff_of_false (by simp) ?_
    rintro ⟨held, -, r, hr, -⟩
    cases hr

theorem answered_of_reads (h : c.Reads) (hheld : c.held.isSome = true) :
    (∀ r, (c.exact r).isSome = true) ∧ (∀ roles, (c.any roles).isSome = true) ∧
      ∀ minimum, (c.orHigher minimum).isSome = true := by
  refine ⟨fun r => ?_, fun roles => ?_, fun minimum => ?_⟩
  · rw [h.exact, Option.isSome_map]
    exact hheld
  · rcases h.any roles with hany | ⟨-, hany⟩
    · rw [hany, Option.isSome_map]
      exact hheld
    · rw [hany]
      rfl
  · rw [h.orHigher, Option.isSome_map]
    exact hheld

theorem listed_of_reads (hl : Listed L) (h : c.Reads) (minimum : L) :
    c.orHigher minimum = c.any (implying minimum) := by
  have hself : minimum ∈ implying minimum := (mem_implying hl).2 (atLeast_self minimum)
  rcases h.any (implying minimum) with hany | ⟨hnil, -⟩
  · rw [hany, h.orHigher]
    refine congrArg (c.held.map ·) (funext fun held => ?_)
    rw [Bool.eq_iff_iff, List.any_eq_true, decide_eq_true_iff]
    constructor
    · rintro ⟨r, hr, hat⟩
      exact ⟨r, (mem_implying hl).2 hat, hr⟩
    · rintro ⟨r, himplies, hr⟩
      exact ⟨r, hr, (mem_implying hl).1 himplies⟩
  · rw [hnil] at hself
    cases hself

theorem agree_of_reads (hl : Listed L) (h : c.Reads) : c.Agree where
  answered := answered_of_reads h
  implied minimum := by
    rw [orHigher_iff h]
    refine exists_congr fun roles => and_congr_right fun _ => ?_
    rw [List.any_eq_true]
    exact exists_congr fun r => and_congr_right fun _ => (mem_implied hl).symm
  ranked minimum := by
    rw [orHigher_iff h]
    exact exists_congr fun roles => and_congr_right fun _ => any_atLeast_iff_highestRank
  listed := listed_of_reads hl h
  disjoined roles := by
    rw [any_iff h]
    constructor
    · rintro ⟨held, hheld, r, hr, hmem⟩
      exact ⟨r, hr, (exact_iff h).2 ⟨held, hheld, hmem⟩⟩
    · rintro ⟨r, hr, hexact⟩
      obtain ⟨held, hheld, hmem⟩ := (exact_iff h).1 hexact
      exact ⟨held, hheld, r, hr, hmem⟩
  orHigher_of_exact r hexact := by
    obtain ⟨held, hheld, hmem⟩ := (exact_iff h).1 hexact
    exact (orHigher_iff h).2 ⟨held, hheld, List.any_eq_true.2 ⟨r, hmem, atLeast_self r⟩⟩

end Checks

/-! ## The checks of a directory -/

namespace Moment

variable (w : Moment σ)

def systemChecks (member : MemberId) : Checks SystemRole where
  held := w.answer (Plan.systemRoles member)
  exact role := w.answer (Authority.hasSystemRole member role)
  any roles := w.answer (Authority.hasAnySystemRole member roles)
  orHigher minimum := w.answer (Authority.hasSystemRoleOrHigher member minimum)

/-- In a course one role is held at most. -/
def courseChecks (member : MemberId) (course : CourseId) : Checks CourseRole where
  held := (w.answer (Plan.courseRole member course)).map Option.toList
  exact role := w.answer (Authority.hasCourseRole member course role)
  any roles := w.answer (Authority.hasAnyCourseRole member course roles)
  orHigher minimum := w.answer (Authority.hasCourseRoleOrHigher member course minimum)

variable {w}

/-- What is worked out from one answer. -/
theorem answer_bind_pure {β : Type} (p : Plan α) (f : α → β) :
    w.answer (p >>= fun a => pure (f a)) = (w.answer p).map f := by
  rw [answer_bind]
  cases w.answer p <;> rfl

theorem systemChecks_reads (member : MemberId) : (w.systemChecks member).Reads where
  exact role := by
    refine (answer_bind_pure _ _).trans (congrArg (Option.map · _) (funext fun held => ?_))
    exact (List.elem_eq_mem role held)
  any roles := by
    by_cases hnil : roles = []
    · subst hnil
      exact Or.inr ⟨rfl, rfl⟩
    · left
      have hempty : ¬ roles.isEmpty = true := fun h => hnil (List.isEmpty_iff.1 h)
      show w.answer (Authority.hasAnySystemRole member roles) = _
      unfold Authority.hasAnySystemRole
      rw [if_neg hempty]
      refine (answer_bind_pure _ _).trans (congrArg (Option.map · _) (funext fun held => ?_))
      rw [Bool.eq_iff_iff, decide_eq_true_iff, List.any_eq_true]
      exact exists_congr fun r => and_congr_right fun _ => List.contains_iff_mem
  orHigher minimum := answer_bind_pure _ _

/-- What is worked out from the role in a course, given as a list. -/
theorem answer_courseRole {member : MemberId} {course : CourseId} {f : Option CourseRole → Bool}
    {g : List CourseRole → Bool} (h : ∀ held, f held = g held.toList) :
    w.answer (Plan.courseRole member course >>= fun held => pure (f held)) =
      (w.courseChecks member course).held.map g := by
  rw [answer_bind_pure]
  show _ = ((w.answer (Plan.courseRole member course)).map Option.toList).map g
  rw [Option.map_map]
  exact congrArg (Option.map · _) (funext h)

theorem courseChecks_reads (member : MemberId) (course : CourseId) : (w.courseChecks member course).Reads where
  exact role := by
    refine answer_courseRole fun held => ?_
    cases held with
    | none => rfl
    | some r =>
      rw [Bool.eq_iff_iff, decide_eq_true_iff, beq_iff_eq, Option.some_inj, Option.toList_some, List.mem_singleton]
      exact eq_comm
  any roles := by
    refine Or.inl (answer_courseRole fun held => ?_)
    cases held <;> simp
  orHigher minimum := by
    refine answer_courseRole fun held => ?_
    cases held <;> simp

theorem isCourseMember_eq (member : MemberId) (course : CourseId) :
    w.answer (Authority.isCourseMember member course) =
      w.answer (Authority.hasCourseRoleOrHigher member course .mentee) := by
  refine (answer_bind_pure _ _).trans (Eq.trans ?_ (answer_bind_pure _ _).symm)
  refine congrArg (Option.map · _) (funext fun held => ?_)
  cases held with
  | none => rfl
  | some r => exact (decide_eq_true (show rank CourseRole.mentee ≤ rank r from UInt8.zero_le)).symm

/-! ## Sessions -/

/-- The checks of a session say what those of its course say, or of the system where it stands alone. -/
structure SessionAgrees (w : Moment σ) (member : MemberId) (session : SessionId) : Prop where
  inCourse : ∀ course, w.answer (Plan.sessionScope session) = some (some (.course course)) → ∀ role,
    w.answer (Authority.hasSessionRole member session role) = w.answer (Authority.hasCourseRole member course role) ∧
      w.answer (Authority.hasSessionRoleOrHigher member session role) =
        w.answer (Authority.hasCourseRoleOrHigher member course role)
  standalone : w.answer (Plan.sessionScope session) = some (some .standalone) → ∀ role,
    w.answer (Authority.hasSessionRole member session role) =
        w.answer (Authority.hasSystemRoleOrHigher member .operator) ∧
      w.answer (Authority.hasSessionRoleOrHigher member session role) =
        w.answer (Authority.hasSystemRoleOrHigher member .operator)
  missing : w.answer (Plan.sessionScope session) = some none → ∀ role,
    w.answer (Authority.hasSessionRole member session role) = some false ∧
      w.answer (Authority.hasSessionRoleOrHigher member session role) = some false
  orHigher_of_exact : ∀ role, w.answer (Authority.hasSessionRole member session role) = some true →
    w.answer (Authority.hasSessionRoleOrHigher member session role) = some true
  attends : ∀ minimum, w.answer (Authority.hasSessionRoleOrHigher member session minimum) = some true →
    w.answer (Authority.isSessionMember member session) = some true

/-- What is answered of a session: what is answered of its course, or in place of that. -/
def byScope (inCourse : CourseId → Option Bool) (standalone : Option Bool) : Option Scope → Option Bool
  | some (.course course) => inCourse course
  | some .standalone => standalone
  | none => some false

/-- A session is looked up, and then the plan for what it belongs to is run. -/
theorem answer_bind_scope (hb : w.backend.Calm) (session : SessionId) (f : Option Scope → Plan α) :
    w.answer (Plan.sessionScope session >>= f) =
      (w.answer (Plan.sessionScope session)).bind fun scope => w.answer (f scope) := by
  have hquiet : Quiet (Plan.sessionScope session) := quiet_query fun _ he => by cases he
  exact answer_bind_quiet hb hquiet f

section

variable {member : MemberId} {session : SessionId}

theorem hasSessionRole_eq (hb : w.backend.Calm) (role : CourseRole) :
    w.answer (Authority.hasSessionRole member session role) = (w.answer (Plan.sessionScope session)).bind
      (byScope (fun course => w.answer (Authority.hasCourseRole member course role))
        (w.answer (Authority.hasSystemRoleOrHigher member .operator))) := by
  refine (answer_bind_scope hb session _).trans (congrArg (Option.bind _) (funext fun scope => ?_))
  rcases scope with - | ⟨course | -⟩ <;> rfl

theorem hasSessionRoleOrHigher_eq (hb : w.backend.Calm) (minimum : CourseRole) :
    w.answer (Authority.hasSessionRoleOrHigher member session minimum) = (w.answer (Plan.sessionScope session)).bind
      (byScope (fun course => w.answer (Authority.hasCourseRoleOrHigher member course minimum))
        (w.answer (Authority.hasSystemRoleOrHigher member .operator))) := by
  refine (answer_bind_scope hb session _).trans (congrArg (Option.bind _) (funext fun scope => ?_))
  rcases scope with - | ⟨course | -⟩ <;> rfl

theorem isSessionMember_eq (hb : w.backend.Calm) :
    w.answer (Authority.isSessionMember member session) = (w.answer (Plan.sessionScope session)).bind
      (byScope (fun course => w.answer (Authority.isCourseMember member course)) (some true)) := by
  refine (answer_bind_scope hb session _).trans (congrArg (Option.bind _) (funext fun scope => ?_))
  rcases scope with - | ⟨course | -⟩ <;> rfl

theorem orHigher_of_session (hb : w.backend.Calm) {role : CourseRole}
    (h : w.answer (Authority.hasSessionRole member session role) = some true) :
    w.answer (Authority.hasSessionRoleOrHigher member session role) = some true := by
  rw [hasSessionRole_eq hb] at h
  rw [hasSessionRoleOrHigher_eq hb]
  obtain ⟨scope, hscope, hanswer⟩ := Option.bind_eq_some_iff.1 h
  refine Option.bind_eq_some_iff.2 ⟨scope, hscope, ?_⟩
  rcases scope with - | ⟨course | -⟩
  · exact hanswer
  · have hagree := Checks.agree_of_reads listed_courseRole (w.courseChecks_reads member course)
    exact hagree.orHigher_of_exact role hanswer
  · exact hanswer

/-- Whoever has any role in the course of a session attends it, and everybody attends one that stands alone. -/
theorem attends_of_session (hb : w.backend.Calm) {minimum : CourseRole}
    (h : w.answer (Authority.hasSessionRoleOrHigher member session minimum) = some true) :
    w.answer (Authority.isSessionMember member session) = some true := by
  rw [hasSessionRoleOrHigher_eq hb] at h
  rw [isSessionMember_eq hb]
  obtain ⟨scope, hscope, hanswer⟩ := Option.bind_eq_some_iff.1 h
  refine Option.bind_eq_some_iff.2 ⟨scope, hscope, ?_⟩
  rcases scope with - | ⟨course | -⟩
  · cases hanswer
  · have hagree := Checks.agree_of_reads listed_courseRole (w.courseChecks_reads member course)
    obtain ⟨roles, hheld, n, hn, -⟩ := (hagree.ranked minimum).1 hanswer
    exact (isCourseMember_eq member course).trans ((hagree.ranked .mentee).2 ⟨roles, hheld, n, hn, UInt8.zero_le⟩)
  · rfl

end

theorem sessionAgrees_of_calm (hb : w.backend.Calm) (member : MemberId) (session : SessionId) :
    w.SessionAgrees member session where
  inCourse course h role := by
    rw [hasSessionRole_eq hb, hasSessionRoleOrHigher_eq hb, h]
    exact ⟨rfl, rfl⟩
  standalone h role := by
    rw [hasSessionRole_eq hb, hasSessionRoleOrHigher_eq hb, h]
    exact ⟨rfl, rfl⟩
  missing h role := by
    rw [hasSessionRole_eq hb, hasSessionRoleOrHigher_eq hb, h]
    exact ⟨rfl, rfl⟩
  orHigher_of_exact _ h := orHigher_of_session hb h
  attends _ h := attends_of_session hb h

/-- Whatever a directory holds, its checks agree with one another. -/
structure Concordant (w : Moment σ) : Prop where
  system : ∀ member, (w.systemChecks member).Agree
  course : ∀ member course, (w.courseChecks member course).Agree
  membership : ∀ member course, w.answer (Authority.isCourseMember member course) =
    w.answer (Authority.hasCourseRoleOrHigher member course .mentee)
  session : ∀ member session, w.SessionAgrees member session

/-- The checks agree with one another at every moment of a directory that is not changed by looking into it. -/
theorem concordant_of_calm (hb : w.backend.Calm) : w.Concordant where
  system member := Checks.agree_of_reads listed_systemRole (systemChecks_reads member)
  course member course := Checks.agree_of_reads listed_courseRole (courseChecks_reads member course)
  membership := isCourseMember_eq
  session := sessionAgrees_of_calm hb

/-- An auditor is no operator, but stands as high as one: in a session that stands alone that makes up for every
    course role. -/
theorem concordant_of_calm_auditor : ∃ w : Moment Store, w.backend.Calm ∧ w.Concordant ∧
    w.answer (Authority.hasSystemRole 4 .operator) = some false ∧
    w.answer (Authority.hasCourseRole 4 5 .manager) = some false ∧
    w.answer (Authority.hasSessionRole 4 8 .manager) = some true ∧
    w.answer (Authority.hasSessionRole 4 7 .manager) = some false ∧
    w.answer (Authority.isSessionMember 4 8) = some true := by
  let directory : Directory := ⟨[(4, .auditor)], [((4, 5), .mentor)], [(7, .course 5), (8, .standalone)]⟩
  let w := Store.moment (.memory ⟨directory, .empty⟩) morning
  have hconcordant : w.Concordant := concordant_of_calm calm_store
  have hsession := hconcordant.session 4 8
  have hstands : w.answer (Authority.hasSystemRoleOrHigher 4 .operator) = some true :=
    ((hconcordant.system 4).ranked .operator).2 ⟨[.auditor], rfl, 1, rfl, by decide⟩
  have halone : w.answer (Plan.sessionScope 8) = some (some .standalone) := rfl
  have hmanager := (hsession.standalone halone .manager).1.trans hstands
  exact ⟨w, calm_store, hconcordant, rfl, rfl, hmanager, rfl,
    hsession.attends .manager (hsession.orHigher_of_exact .manager hmanager)⟩

end Moment

end Rollbook
