import Mathlib.Data.List.Nodup
import Rollbook.Proofs.Lasting
import Rollbook.Proofs.Review
/-
  Rollbook.Proofs.Rolls — the directory in memory and the one in tables.

  Who holds which role and where a session belongs is kept in memory under keys, and in
  tables as rows, some of which go when other rows are deleted. What tables keep of it
  is a directory as well (`Tables.directory`), and whatever is asked of a store about
  roles and sessions is answered from its directory: at once, or by a list whose order
  is the store's own.

  From this follow the two results that `directories_of_updates` puts together.

  - Tables and memory that were given the same updates (`Paired`) have the same
    directory, so nobody can tell them apart.
  - In either no key ever has two values (`Directory.Single`): a role that is assigned
    again is replaced, and sessions are numbered as they come. So what is listed of a
    course is what is answered one by one, each member and each session once.
-/

namespace Rollbook

/-! ## Tables with one value for each key -/

namespace Keyed

variable {κ α : Type} {key : κ} {value : α} {table : List (κ × α)}

/-- No key stands twice. -/
def Unique (table : List (κ × α)) : Prop := (table.map Prod.fst).Nodup

theorem unique_filter (h : Unique table) (p : κ × α → Bool) : Unique (table.filter p) :=
  h.sublist (List.filter_sublist.map Prod.fst)

variable [BEq κ] [LawfulBEq κ]

theorem mem_keys_put {k : κ} (h : k ∈ (put key value table).map Prod.fst) : k = key ∨ k ∈ table.map Prod.fst := by
  obtain ⟨p, hp, rfl⟩ := List.mem_map.1 h
  exact (of_mem_put hp).imp_right List.mem_map_of_mem

theorem unique_put (h : Unique table) (key : κ) (value : α) : Unique (put key value table) := by
  induction table with
  | nil => exact List.nodup_singleton key
  | cons head rest ih =>
    obtain ⟨hhead, hrest⟩ := List.nodup_cons.1 h
    unfold put
    split
    · exact List.nodup_cons.2 ⟨hhead, hrest⟩
    · rename_i hother
      refine List.nodup_cons.2 ⟨fun hmem => ?_, ih hrest⟩
      rcases mem_keys_put hmem with hkey | hold
      · exact hother (beq_of_eq hkey.symm)
      · exact hhead hold

/-- A new key comes last. -/
theorem put_of_not_mem (h : key ∉ table.map Prod.fst) : put key value table = table ++ [(key, value)] := by
  induction table with
  | nil => rfl
  | cons head rest ih =>
    rw [List.map_cons, List.mem_cons, not_or] at h
    unfold put
    rw [if_neg fun hkey => h.1 (eq_of_beq hkey), ih h.2]
    rfl

/-- Where no key stands twice, each pair is found under its key. -/
theorem lookup_eq_some (h : Unique table) : table.lookup key = some value ↔ (key, value) ∈ table := by
  rw [List.lookup_eq_some_iff]
  constructor
  · rintro ⟨before, after, rfl, -⟩
    simp
  · intro hmem
    obtain ⟨before, after, rfl⟩ := List.append_of_mem hmem
    refine ⟨before, after, rfl, fun p hp => bne_iff_ne.2 fun hkey => ?_⟩
    unfold Unique at h
    rw [List.map_append, List.nodup_append] at h
    exact h.2.2 p.1 (List.mem_map_of_mem hp) key List.mem_cons_self hkey.symm

end Keyed

/-! ## Directories -/

namespace Directory

variable {d : Directory} {member : MemberId} {course : CourseId} {session : SessionId}

/-- What is done to a directory in memory. -/
inductive Update where
  | addSession (session : SessionId) (scope : Scope)
  | assign (member : MemberId) (course : CourseId) (role : CourseRole)
  | grant (member : MemberId) (role : SystemRole)
  | revoke (member : MemberId) (role : SystemRole)

def update (d : Directory) : Update → Directory
  | .addSession session scope => d.addSession session scope
  | .assign member course role => d.assign member course role
  | .grant member role => d.grant member role
  | .revoke member role => d.revoke member role

/-- One role for each member and course, and one scope for each session. -/
structure Single (d : Directory) : Prop where
  course : Keyed.Unique d.course
  sessions : Keyed.Unique d.sessions

theorem single_empty : empty.Single := ⟨List.nodup_nil, List.nodup_nil⟩

theorem single_update (h : d.Single) (u : Update) : (d.update u).Single := by
  cases u with
  | addSession session scope => exact ⟨h.course, Keyed.unique_put h.sessions session scope⟩
  | assign member course role => exact ⟨Keyed.unique_put h.course (member, course) role, h.sessions⟩
  | grant member role =>
    unfold update grant
    dsimp only
    split
    · exact h
    · exact ⟨h.course, h.sessions⟩
  | revoke member role => exact ⟨h.course, h.sessions⟩

theorem single_of_updates (us : List Update) : (us.foldl update empty).Single := by
  induction us using List.reverseRecOn with
  | nil => exact single_empty
  | append_singleton us u ih =>
    rw [List.foldl_append]
    exact single_update ih u

/-! ### Lists -/

theorem nodup_courseMembers (h : d.Single) : (d.courseMembers course).Nodup := by
  unfold courseMembers
  refine (List.mergeSort_perm _ _).nodup_iff.2 (List.pairwise_filterMap.2 ?_)
  refine (List.pairwise_map.1 h.course).imp fun {a b} hne m hm m' hm' hsame => hne ?_
  split at hm
  · rename_i hcourse
    split at hm'
    · rename_i hcourse'
      cases hm
      cases hm'
      exact Prod.ext hsame (hcourse.trans hcourse'.symm)
    · cases hm'
  · cases hm

theorem ascending_courseMembers (h : d.Single) : (d.courseMembers course).Pairwise (· < ·) := by
  have hsorted : (d.courseMembers course).Pairwise fun a b => decide (a ≤ b) = true :=
    List.pairwise_mergeSort (fun a b c hab hbc => by
        simp only [decide_eq_true_eq] at hab hbc ⊢
        exact Int64.le_trans hab hbc)
      (fun a b => by simpa using Int64.le_total a b) _
  exact (hsorted.and (nodup_courseMembers h)).imp fun ⟨hle, hne⟩ => Int64.lt_of_le_of_ne (of_decide_eq_true hle) hne

theorem mem_courseMembers (h : d.Single) :
    member ∈ d.courseMembers course ↔ ∃ role, d.courseRole member course = some role := by
  unfold courseMembers courseRole
  rw [(List.mergeSort_perm _ _).mem_iff, List.mem_filterMap]
  constructor
  · rintro ⟨⟨⟨m, c⟩, role⟩, hheld, hin⟩
    split at hin
    · rename_i hcourse
      cases hin
      cases hcourse
      exact ⟨role, (Keyed.lookup_eq_some h.course).2 hheld⟩
    · cases hin
  · rintro ⟨role, hrole⟩
    exact ⟨((member, course), role), (Keyed.lookup_eq_some h.course).1 hrole, if_pos rfl⟩

/-- The sessions of a course in the order in which they are kept. -/
def sessionsIn (d : Directory) (course : CourseId) : List SessionId :=
  (d.sessions.filter fun s => s.2 = .course course).map Prod.fst

theorem courseSessions_perm (d : Directory) (course : CourseId) :
    (d.courseSessions course).Perm (d.sessionsIn course) := by
  have hlist : (d.sessions.filterMap fun s => if s.2 = .course course then some s.1 else none) = d.sessionsIn course := by
    unfold sessionsIn
    rw [← List.filterMap_eq_map, List.filterMap_filter]
    simp
  unfold courseSessions
  rw [hlist]
  exact List.mergeSort_perm _ _

theorem nodup_sessionsIn (h : d.Single) : (d.sessionsIn course).Nodup := Keyed.unique_filter h.sessions _

theorem mem_sessionsIn (h : d.Single) :
    session ∈ d.sessionsIn course ↔ d.sessionScope session = some (.course course) := by
  unfold sessionsIn sessionScope
  rw [Keyed.lookup_eq_some h.sessions, List.mem_map]
  constructor
  · rintro ⟨⟨s, scope⟩, hs, rfl⟩
    obtain ⟨hmem, hscope⟩ := List.mem_filter.1 hs
    cases of_decide_eq_true hscope
    exact hmem
  · intro hmem
    exact ⟨_, List.mem_filter.2 ⟨hmem, decide_eq_true rfl⟩, rfl⟩

end Directory

/-! ## What tables keep -/

/-- Where a session belongs. -/
def Meeting.scope (m : Meeting) : Scope :=
  match m.course with
  | some course => .course course
  | none => .standalone

namespace Tables

variable {t t' : Tables}

/-- The directory that the rows of roles and sessions make. -/
def directory (t : Tables) : Directory where
  system := t.systemRoles
  course := t.courseRoles
  sessions := t.sessions.rows.map fun row => (row.1, row.2.scope)

theorem sessionScope_eq (t : Tables) (session : SessionId) : t.sessionScope session = t.directory.sessionScope session := by
  unfold sessionScope Numbered.get? directory Directory.sessionScope
  dsimp only
  induction t.sessions.rows with
  | nil => rfl
  | cons row rest ih =>
    rw [List.map_cons, List.lookup_cons, List.lookup_cons]
    cases session == row.1 with
    | true => rfl
    | false => exact ih

theorem courseSessions_perm (t : Tables) (course : CourseId) :
    (t.courseSessions course).Perm (t.directory.sessionsIn course) := by
  have hlist : t.directory.sessionsIn course =
      (t.sessions.rows.filter fun row => row.2.course = some course).map Prod.fst := by
    unfold Directory.sessionsIn directory
    dsimp only
    rw [List.filter_map, List.map_map]
    refine congrArg (List.map _) (List.filter_congr fun row _ => ?_)
    simp only [Function.comp_apply, Meeting.scope]
    cases row.2.course <;> simp
  rw [hlist]
  exact (List.mergeSort_perm _ _).map Prod.fst

/-! ### Keys -/

/-- Sessions have numbers up to the last one given, each its own, and no member has two roles in a course. -/
structure Single (t : Tables) : Prop where
  courseRoles : Keyed.Unique t.courseRoles
  sessions : Keyed.Unique t.sessions.rows
  counted : ∀ row ∈ t.sessions.rows, row.1 ≤ t.sessions.last

theorem single_empty : Single empty := ⟨List.nodup_nil, List.nodup_nil, fun _ h => nomatch h⟩

theorem single_directory (h : t.Single) : t.directory.Single := by
  refine ⟨h.courseRoles, ?_⟩
  unfold Keyed.Unique directory
  rw [List.map_map]
  exact h.sessions

theorem single_of_rolls (h : t.Single) (hc : t'.courseRoles = t.courseRoles) (hs : t'.sessions = t.sessions) :
    t'.Single := by
  refine ⟨?_, ?_, ?_⟩
  · rw [hc]
    exact h.courseRoles
  · rw [hs]
    exact h.sessions
  · rw [hs]
    exact h.counted

/-- A session is given a number that none has. -/
theorem number_of_insert (h : t.Single) {meeting : Meeting} {id : SessionId} {sessions : Numbered Meeting}
    (hi : t.sessions.insert? meeting = some (id, sessions)) :
    sessions = ⟨id, t.sessions.rows ++ [(id, meeting)]⟩ ∧ ∀ row ∈ t.sessions.rows, row.1 < id := by
  refine ⟨Numbered.eq_of_insert? hi, fun row hrow => ?_⟩
  unfold Numbered.insert? at hi
  split at hi
  · rename_i hroom
    cases hi
    have hle := h.counted row hrow
    grind
  · cases hi

theorem single_createSession (h : t.Single) {meeting : Meeting} {id : SessionId}
    (hc : t.createSession meeting = .ok (id, t')) : t'.Single := by
  obtain ⟨-, sessions, hinsert, rfl⟩ := eq_of_createSession hc
  obtain ⟨rfl, hnew⟩ := number_of_insert h hinsert
  refine ⟨h.courseRoles, ?_, fun row hrow => ?_⟩
  · show ((t.sessions.rows ++ [(id, meeting)]).map Prod.fst).Nodup
    rw [List.map_append, List.nodup_append]
    refine ⟨h.sessions, List.nodup_singleton _, fun i hi j hj => ?_⟩
    obtain ⟨row, hrow, rfl⟩ := List.mem_map.1 hi
    rw [List.mem_singleton.1 hj]
    exact Int64.ne_of_lt (hnew row hrow)
  · rcases List.mem_append.1 hrow with hrow | hrow
    · exact Int64.le_of_lt (hnew row hrow)
    · rw [List.mem_singleton.1 hrow]
      exact Int64.le_refl id

theorem single_without (h : t.Single) (part : Part) (id : Int64) : (t.without part id).Single := by
  cases part with
  | members => exact ⟨Keyed.unique_filter h.courseRoles _, h.sessions, h.counted⟩
  | courses =>
    refine ⟨Keyed.unique_filter h.courseRoles _, ?_, fun row hrow => ?_⟩
    · show ((t.sessions.rows.map fun row => (row.1, _)).map Prod.fst).Nodup
      rw [List.map_map]
      exact h.sessions
    · obtain ⟨old, hold, rfl⟩ := List.mem_map.1 hrow
      exact h.counted old hold
  | sessions =>
    exact ⟨h.courseRoles, Keyed.unique_filter h.sessions _, fun row hrow => h.counted row (List.mem_filter.1 hrow).1⟩
  | records => exact single_of_rolls h rfl rfl

theorem single_apply (h : t.Single) {c : Chore} (hc : t.apply c = .ok t') : t'.Single := by
  cases c with
  | createMember nickname =>
    obtain ⟨id, hcreate⟩ := eq_of_map hc
    obtain ⟨members, -, rfl⟩ := eq_of_createMember hcreate
    exact single_of_rolls h rfl rfl
  | createCourse title =>
    obtain ⟨id, hcreate⟩ := eq_of_map hc
    obtain ⟨courses, -, rfl⟩ := eq_of_createCourse hcreate
    exact single_of_rolls h rfl rfl
  | createSession meeting =>
    obtain ⟨id, hcreate⟩ := eq_of_map hc
    exact single_createSession h hcreate
  | assign member course role =>
    obtain ⟨-, rfl⟩ := eq_of_assign hc
    exact ⟨Keyed.unique_put h.courseRoles (member, course) role, h.sessions, h.counted⟩
  | grant member role =>
    rcases eq_of_grant hc with rfl | ⟨-, rfl⟩
    · exact h
    · exact single_of_rolls h rfl rfl
  | delete part id =>
    obtain ⟨n, hdelete⟩ := eq_of_map hc
    rcases eq_of_delete hdelete with rfl | ⟨-, rfl⟩
    · exact h
    · exact single_without h part id

/-- An append is no matter of roles and sessions. -/
theorem rolls_append (t : Tables) (r : Record) : (t.append r).state.members = t.members ∧
    (t.append r).state.courses = t.courses ∧ (t.append r).state.sessions = t.sessions ∧
    (t.append r).state.courseRoles = t.courseRoles ∧ (t.append r).state.systemRoles = t.systemRoles :=
  sameRolls_append (.tables t) r

theorem single_turn (h : t.Single) (hturn : Turn t t') : t'.Single := by
  cases hturn with
  | append r =>
    obtain ⟨-, -, hsessions, hcourse, -⟩ := rolls_append t r
    exact single_of_rolls h hcourse hsessions
  | chore c =>
    rcases perform_cases t c with hsame | hdone
    · rw [hsame]
      exact h
    · exact single_apply h hdone

theorem single_of_run (h : Run .empty t) : t.Single := by
  induction h with
  | refl => exact single_empty
  | tail _ hturn ih => exact single_turn ih hturn

end Tables

/-! ## What is answered -/

namespace Store

def directory : Store → Directory
  | .memory m => m.directory
  | .tables t => t.directory

variable {st st' : Store}

theorem systemRoles_eq (st : Store) (member : MemberId) : st.systemRoles member = st.directory.systemRoles member := by
  cases st <;> rfl

theorem courseRole_eq (st : Store) (member : MemberId) (course : CourseId) :
    st.courseRole member course = st.directory.courseRole member course := by
  cases st <;> rfl

theorem scope_eq (st : Store) (session : SessionId) : st.scope session = st.directory.sessionScope session := by
  cases st with
  | memory m => rfl
  | tables t => exact t.sessionScope_eq session

theorem answers_courseMembers (st : Store) (course : CourseId) :
    st.Answers (.courseMembers course) (st.directory.courseMembers course) := by
  cases st <;> rfl

theorem answers_courseSessions (st : Store) (course : CourseId) :
    ∃ listed : List SessionId, st.Answers (.courseSessions course) listed ∧ listed.Perm (st.directory.sessionsIn course) := by
  cases st with
  | memory m => exact ⟨_, rfl, m.directory.courseSessions_perm course⟩
  | tables t => exact ⟨_, rfl, t.courseSessions_perm course⟩

/-- Roles and sessions are answered alike, those that come in lists in some order. -/
structure SameAnswers (st st' : Store) : Prop where
  systemRoles : ∀ member, ∃ held held' : List SystemRole, st.Answers (.systemRoles member) held ∧
    st'.Answers (.systemRoles member) held' ∧ ∀ role, role ∈ held ↔ role ∈ held'
  courseRole : ∀ member course, ∃ role, st.Answers (.courseRole member course) role ∧
    st'.Answers (.courseRole member course) role
  sessionScope : ∀ session, ∃ scope, st.Answers (.sessionScope session) scope ∧
    st'.Answers (.sessionScope session) scope
  courseMembers : ∀ course, ∃ listed, st.Answers (.courseMembers course) listed ∧
    st'.Answers (.courseMembers course) listed
  courseSessions : ∀ course, ∃ listed listed' : List SessionId, st.Answers (.courseSessions course) listed ∧
    st'.Answers (.courseSessions course) listed' ∧ listed.Perm listed'

theorem sameAnswers_of_directory (h : st'.directory = st.directory) : st.SameAnswers st' := by
  refine ⟨fun member => ?_, fun member course => ?_, fun session => ?_, fun course => ?_, fun course => ?_⟩
  · refine ⟨_, _, answers_systemRoles.2 rfl, answers_systemRoles.2 rfl, fun role => ?_⟩
    rw [systemRoles_eq, systemRoles_eq, h]
  · refine ⟨_, answers_courseRole.2 rfl, answers_courseRole.2 ?_⟩
    rw [courseRole_eq, courseRole_eq, h]
  · refine ⟨_, answers_sessionScope.2 rfl, answers_sessionScope.2 ?_⟩
    rw [scope_eq, scope_eq, h]
  · have hlisted := st'.answers_courseMembers course
    rw [h] at hlisted
    exact ⟨_, st.answers_courseMembers course, hlisted⟩
  · obtain ⟨listed, hlisted, hperm⟩ := st.answers_courseSessions course
    obtain ⟨listed', hlisted', hperm'⟩ := st'.answers_courseSessions course
    rw [h] at hperm'
    exact ⟨listed, listed', hlisted, hlisted', hperm.trans hperm'.symm⟩

/-- What is listed of a course is what is answered one by one. -/
structure Coherent (st : Store) : Prop where
  members : ∀ course, ∃ listed : List MemberId, st.Answers (.courseMembers course) listed ∧ listed.Nodup ∧
    listed.Pairwise (· < ·) ∧ ∀ member, member ∈ listed ↔ ∃ role, st.Answers (.courseRole member course) (some role)
  sessions : ∀ course, ∃ listed : List SessionId, st.Answers (.courseSessions course) listed ∧ listed.Nodup ∧
    ∀ session, session ∈ listed ↔ st.Answers (.sessionScope session) (some (.course course))

theorem coherent_of_single (h : st.directory.Single) : st.Coherent := by
  refine ⟨fun course => ?_, fun course => ?_⟩
  · refine ⟨_, st.answers_courseMembers course, Directory.nodup_courseMembers h, Directory.ascending_courseMembers h,
      fun member => ?_⟩
    rw [Directory.mem_courseMembers h]
    refine exists_congr fun role => ?_
    rw [answers_courseRole, courseRole_eq]
  · obtain ⟨listed, hlisted, hperm⟩ := st.answers_courseSessions course
    refine ⟨listed, hlisted, hperm.nodup_iff.2 (Directory.nodup_sessionsIn h), fun session => ?_⟩
    rw [hperm.mem_iff, Directory.mem_sessionsIn h, answers_sessionScope, scope_eq]

end Store

/-! ## The same updates -/

/-- A directory and tables were given the same updates. Tables had the rows that each of them names, and a session
    has the number in memory that it was given in tables. -/
inductive Paired : Directory → Tables → Prop
  | start : Paired .empty .empty
  | member {d : Directory} {t t' : Tables} {id : MemberId} (nickname : String) :
      Paired d t → t.createMember nickname = .ok (id, t') → Paired d t'
  | course {d : Directory} {t t' : Tables} {id : CourseId} (title : String) :
      Paired d t → t.createCourse title = .ok (id, t') → Paired d t'
  | append {d : Directory} {t : Tables} (r : Record) : Paired d t → Paired d (t.append r).state
  | session {d : Directory} {t t' : Tables} {id : SessionId} (meeting : Meeting) :
      Paired d t → t.createSession meeting = .ok (id, t') → Paired (d.addSession id meeting.scope) t'
  | assign {d : Directory} {t t' : Tables} (member : MemberId) (course : CourseId) (role : CourseRole) :
      Paired d t → t.assign member course role = .ok t' → Paired (d.assign member course role) t'
  | grant {d : Directory} {t t' : Tables} (member : MemberId) (role : SystemRole) :
      Paired d t → t.grant member role = .ok t' → Paired (d.grant member role) t'

variable {d : Directory} {t t' : Tables}

theorem directory_createSession (h : t.Single) {meeting : Meeting} {id : SessionId}
    (hc : t.createSession meeting = .ok (id, t')) : t'.directory = t.directory.addSession id meeting.scope := by
  obtain ⟨-, sessions, hinsert, rfl⟩ := Tables.eq_of_createSession hc
  obtain ⟨rfl, hnew⟩ := Tables.number_of_insert h hinsert
  have hmissing : id ∉ t.directory.sessions.map Prod.fst := by
    intro hmem
    obtain ⟨p, hp, rfl⟩ := List.mem_map.1 hmem
    obtain ⟨row, hrow, rfl⟩ := List.mem_map.1 hp
    exact absurd rfl (Int64.ne_of_lt (hnew row hrow))
  unfold Directory.addSession
  rw [Keyed.put_of_not_mem hmissing]
  unfold Tables.directory
  rw [List.map_append]
  rfl

theorem directory_assign {member : MemberId} {course : CourseId} {role : CourseRole}
    (ha : t.assign member course role = .ok t') : t'.directory = t.directory.assign member course role := by
  obtain ⟨-, rfl⟩ := Tables.eq_of_assign ha
  rfl

theorem directory_grant {member : MemberId} {role : SystemRole} (hg : t.grant member role = .ok t') :
    t'.directory = t.directory.grant member role := by
  unfold Tables.grant at hg
  unfold Directory.grant
  split at hg
  · rename_i hheld
    cases hg
    exact (if_pos hheld).symm
  · rename_i hnew
    split at hg
    · cases hg
      exact (if_neg hnew).symm
    · cases hg

/-- Who was given the same updates has the same directory. -/
theorem directory_of_paired (h : Paired d t) : t.directory = d ∧ Tables.Run .empty t := by
  have hchore : ∀ {t t' : Tables} {c : Tables.Chore}, Tables.Run .empty t → t.apply c = .ok t' → Tables.Run .empty t' :=
    fun hrun hc => Tables.perform_done hc ▸ hrun.tail (.chore _)
  induction h with
  | start => exact ⟨rfl, .refl⟩
  | member nickname _ hc ih =>
    obtain ⟨rfl, hrun⟩ := ih
    have hrun' := hchore (c := .createMember nickname) hrun (congrArg (Except.map Prod.snd) hc)
    obtain ⟨members, -, rfl⟩ := Tables.eq_of_createMember hc
    exact ⟨rfl, hrun'⟩
  | course title _ hc ih =>
    obtain ⟨rfl, hrun⟩ := ih
    have hrun' := hchore (c := .createCourse title) hrun (congrArg (Except.map Prod.snd) hc)
    obtain ⟨courses, -, rfl⟩ := Tables.eq_of_createCourse hc
    exact ⟨rfl, hrun'⟩
  | @append d t r _ ih =>
    obtain ⟨rfl, hrun⟩ := ih
    obtain ⟨-, -, hsessions, hcourse, hsystem⟩ := Tables.rolls_append t r
    refine ⟨?_, hrun.tail (.append r)⟩
    unfold Tables.directory
    rw [hsessions, hcourse, hsystem]
  | session meeting _ hc ih =>
    obtain ⟨rfl, hrun⟩ := ih
    exact ⟨directory_createSession (Tables.single_of_run hrun) hc,
      hchore (c := .createSession meeting) hrun (congrArg (Except.map Prod.snd) hc)⟩
  | assign member course role _ ha ih =>
    obtain ⟨rfl, hrun⟩ := ih
    exact ⟨directory_assign ha, hchore (c := .assign member course role) hrun ha⟩
  | grant member role _ hg ih =>
    obtain ⟨rfl, hrun⟩ := ih
    exact ⟨directory_grant hg, hchore (c := .grant member role) hrun hg⟩

/-- Both can be updated further, as long as tables have the rows that the update names and a number for a session. -/
structure Proceeds (d : Directory) (t : Tables) : Prop where
  session : ∀ meeting : Meeting, meeting.course.all t.courses.contains = true → t.sessions.last < Int64.maxValue →
    ∃ id t', t.createSession meeting = .ok (id, t') ∧ Paired (d.addSession id meeting.scope) t'
  assign : ∀ member course role, t.members.contains member = true → t.courses.contains course = true →
    ∃ t', t.assign member course role = .ok t' ∧ Paired (d.assign member course role) t'
  grant : ∀ member role, t.members.contains member = true →
    ∃ t', t.grant member role = .ok t' ∧ Paired (d.grant member role) t'

theorem proceeds_of_paired (h : Paired d t) : Proceeds d t := by
  refine ⟨fun meeting hcourse hroom => ?_, fun member course role hmember hcourse => ?_, fun member role hmember => ?_⟩
  · have hcreate : ∃ id t', t.createSession meeting = .ok (id, t') := by
      unfold Tables.createSession Numbered.insert?
      rw [if_pos hroom]
      exact ⟨_, _, if_pos hcourse⟩
    obtain ⟨id, t', hc⟩ := hcreate
    exact ⟨id, t', hc, h.session meeting hc⟩
  · have hassign : ∃ t', t.assign member course role = .ok t' := by
      unfold Tables.assign
      rw [if_pos ((Bool.and_eq_true _ _).mpr ⟨hmember, hcourse⟩)]
      exact ⟨_, rfl⟩
    obtain ⟨t', ha⟩ := hassign
    exact ⟨t', ha, h.assign member course role ha⟩
  · have hgrant : ∃ t', t.grant member role = .ok t' := by
      unfold Tables.grant
      rw [if_pos hmember]
      split <;> exact ⟨_, rfl⟩
    obtain ⟨t', hg⟩ := hgrant
    exact ⟨t', hg, h.grant member role hg⟩

/-- The words under which roles are kept in a table can be read back. -/
structure Readable (R : Type) [Ladder R] : Prop where
  read : ∀ role : R, Ladder.ofStored? (Ladder.stored role) = some role

theorem readable_systemRole : Readable SystemRole := ⟨fun role => by cases role <;> decide +kernel⟩

theorem readable_courseRole : Readable CourseRole := ⟨fun role => by cases role <;> decide +kernel⟩

/-- After the same updates a directory in memory and tables answer alike, and whatever was done to either of them,
    removals included, they list of a course what they answer one by one. -/
theorem directories_of_updates :
    (∀ d t, Paired d t → Proceeds d t ∧ ∀ shelf, (Store.memory ⟨d, shelf⟩).SameAnswers (.tables t)) ∧
      (∀ (us : List Directory.Update) shelf, (Store.memory ⟨us.foldl Directory.update .empty, shelf⟩).Coherent) ∧
      (∀ t, Tables.Run .empty t → (Store.tables t).Coherent) ∧ Readable SystemRole ∧ Readable CourseRole := by
  refine ⟨fun d t h => ⟨proceeds_of_paired h, fun shelf => ?_⟩, fun us shelf => ?_, fun t h => ?_,
    readable_systemRole, readable_courseRole⟩
  · exact Store.sameAnswers_of_directory (directory_of_paired h).1
  · exact Store.coherent_of_single (Directory.single_of_updates us)
  · exact Store.coherent_of_single (Tables.single_directory (Tables.single_of_run h))

/-! ## A course and its end -/

/-- A member who was made a mentor of a course, an auditor told so twice, a session of the course and one that stands
    alone. -/
def faculty : Tables where
  members := ⟨1, [(1, "Ann")]⟩
  courses := ⟨1, [(1, "Logic")]⟩
  sessions := ⟨2, [(1, ⟨some 1, "One", morning⟩), (2, ⟨none, "Two", morning⟩)]⟩
  courseRoles := [((1, 1), .mentor)]
  systemRoles := [(1, .auditor)]
  lastRecord := 0
  headers := []
  entries := []

theorem paired_faculty : Paired ⟨[(1, .auditor)], [((1, 1), .mentor)], [(1, .course 1), (2, .standalone)]⟩ faculty := by
  have hmember := Paired.start.member "Ann" rfl
  have hcourse := hmember.course "Logic" rfl
  have hfirst := hcourse.session ⟨some 1, "One", morning⟩ rfl
  have hsecond := hfirst.session ⟨none, "Two", morning⟩ rfl
  have hmentee := hsecond.assign 1 1 .mentee rfl
  have hmentor := hmentee.assign 1 1 .mentor rfl
  have hauditor := hmentor.grant 1 .auditor rfl
  exact hauditor.grant 1 .auditor rfl

/-- Tables answer as memory does. After the course was deleted there nobody is listed for it any more, and its session
    stands alone. -/
theorem directories_of_updates_faculty : ∃ d t t', Paired d t ∧ (Store.memory ⟨d, .empty⟩).SameAnswers (.tables t) ∧
    d.courseRole 1 1 = some .mentor ∧ t.courseRole 1 1 = some .mentor ∧ Tables.Run .empty t' ∧
    t.delete .courses 1 = .ok (1, t') ∧ t'.courseRole 1 1 = none ∧ t'.sessionScope 1 = some .standalone ∧
    (Store.tables t).Coherent ∧ (Store.tables t').Coherent := by
  obtain ⟨hpaired, -, htables, -, -⟩ := directories_of_updates
  obtain ⟨-, hsame⟩ := hpaired _ _ paired_faculty
  have hrun := (directory_of_paired paired_faculty).2
  have hrun' := hrun.tail (.chore (.delete .courses 1))
  exact ⟨_, _, _, paired_faculty, hsame .empty, rfl, rfl, hrun', rfl, rfl, rfl, htables _ hrun, htables _ hrun'⟩

end Rollbook
