import Rollbook.Proofs.Rows
import Rollbook.Tables.Delete
/-
  Rollbook.Proofs.Links — no reference dangles.

  Rows of tables name rows of other tables, and rows are removed. Each rule of a delete
  is there for a reference: the roles of a member or a course go with it, the sessions of
  a course stay behind without one, and a row that a log depends on is not removed at
  all.

  `Linked` says that every reference points to a row. A chore is anything that is done to
  tables beside appends; every chore keeps them linked, whether it is carried out or
  refused (`linked_perform`), and so does every append, whatever record it is given
  (`linked_append`).
-/

namespace Rollbook

/-! ## Rows by number and by key -/

namespace Numbered

variable {α : Type} {t t' : Numbered α} {row : α} {id i : Int64}

theorem contains_iff : t.contains i = true ↔ ∃ row ∈ t.rows, row.1 = i := by
  unfold contains get?
  rw [List.lookup_isSome_iff]
  refine exists_congr fun row => and_congr_right fun _ => ?_
  rw [beq_iff_eq, eq_comm]

theorem eq_of_insert? (h : t.insert? row = some (id, t')) : t' = ⟨id, t.rows ++ [(id, row)]⟩ := by
  unfold insert? at h
  split at h
  · cases h
    rfl
  · cases h

theorem contains_insert? (h : t.insert? row = some (id, t')) (hi : t.contains i = true) : t'.contains i = true := by
  obtain ⟨old, hold, rfl⟩ := contains_iff.1 hi
  rw [eq_of_insert? h]
  exact contains_iff.2 ⟨old, List.mem_append_left _ hold, rfl⟩

theorem contains_erase : (t.erase id).contains i = true ↔ t.contains i = true ∧ i ≠ id := by
  simp only [contains_iff, erase, List.mem_filter, decide_eq_true_eq]
  constructor
  · rintro ⟨row, ⟨hrow, hne⟩, rfl⟩
    exact ⟨⟨row, hrow, rfl⟩, hne⟩
  · rintro ⟨⟨row, hrow, rfl⟩, hne⟩
    exact ⟨row, ⟨hrow, hne⟩, rfl⟩

theorem contains_map (f : α → α) : (t.map f).contains i = t.contains i := by
  rw [Bool.eq_iff_iff]
  simp [contains_iff, map]

theorem erase_eq_self (h : ¬ t.contains id = true) : t.erase id = t := by
  have hrows : (t.rows.filter fun row => row.1 ≠ id) = t.rows :=
    List.filter_eq_self.2 fun row hr => decide_eq_true fun hid => h (contains_iff.2 ⟨row, hr, hid⟩)
  unfold erase
  rw [hrows]

theorem map_eq_self {f : α → α} (h : ∀ row ∈ t.rows, f row.2 = row.2) : t.map f = t := by
  have hrows : (t.rows.map fun row => (row.1, f row.2)) = t.rows :=
    (List.map_congr_left fun row hr => congrArg (Prod.mk row.1) (h row hr)).trans (List.map_id t.rows)
  unfold map
  rw [hrows]

end Numbered

/-- A pair in a table after a `put` has the key that was put, or it was there. -/
theorem Keyed.of_mem_put {κ α : Type} [BEq κ] [LawfulBEq κ] {key : κ} {value : α} {table : List (κ × α)} {p : κ × α}
    (h : p ∈ put key value table) : p.1 = key ∨ p ∈ table := by
  induction table with
  | nil => exact Or.inl (congrArg Prod.fst (List.mem_singleton.1 h))
  | cons head rest ih =>
    unfold put at h
    split at h
    · rename_i hkey
      rcases List.mem_cons.1 h with rfl | h
      · exact Or.inl (eq_of_beq hkey).symm
      · exact Or.inr (List.mem_cons_of_mem _ h)
    · rcases List.mem_cons.1 h with rfl | h
      · exact Or.inr List.mem_cons_self
      · exact (ih h).imp_right (List.mem_cons_of_mem _)

namespace Tables

/-! ## Chores -/

/-- What is done to tables beside appends. -/
inductive Chore where
  | createMember (nickname : String)
  | createCourse (title : String)
  | createSession (meeting : Meeting)
  | assign (member : MemberId) (course : CourseId) (role : CourseRole)
  | grant (member : MemberId) (role : SystemRole)
  | delete (part : Part) (id : Int64)

def apply (t : Tables) : Chore → Except DbError Tables
  | .createMember nickname => (t.createMember nickname).map Prod.snd
  | .createCourse title => (t.createCourse title).map Prod.snd
  | .createSession meeting => (t.createSession meeting).map Prod.snd
  | .assign member course role => t.assign member course role
  | .grant member role => t.grant member role
  | .delete part id => (t.delete part id).map Prod.snd

/-- The tables after a chore, as they were if it is refused. -/
def perform (t : Tables) (c : Chore) : Tables :=
  match t.apply c with
  | .ok t' => t'
  | .error _ => t

variable {t t' : Tables}

theorem perform_done {c : Chore} (h : t.apply c = .ok t') : t.perform c = t' := by
  unfold perform
  rw [h]

theorem perform_refused {c : Chore} {e : DbError} (h : t.apply c = .error e) : t.perform c = t := by
  unfold perform
  rw [h]

theorem perform_cases (t : Tables) (c : Chore) : t.perform c = t ∨ t.apply c = .ok (t.perform c) := by
  cases h : t.apply c with
  | error e => exact Or.inl (perform_refused h)
  | ok t' => exact Or.inr (congrArg Except.ok (perform_done h).symm)

/-! ### What each of them does -/

theorem eq_of_map {α : Type} {x : Except DbError (α × Tables)} (h : x.map Prod.snd = .ok t') :
    ∃ a, x = .ok (a, t') := by
  cases x with
  | error e => cases h
  | ok p =>
    cases h
    exact ⟨p.1, rfl⟩

theorem eq_of_createMember {nickname : String} {id : MemberId} (h : t.createMember nickname = .ok (id, t')) :
    ∃ members, t.members.insert? nickname = some (id, members) ∧ t' = { t with members } := by
  unfold createMember at h
  split at h
  · rename_i hinsert
    cases h
    exact ⟨_, hinsert, rfl⟩
  · cases h

theorem eq_of_createCourse {title : String} {id : CourseId} (h : t.createCourse title = .ok (id, t')) :
    ∃ courses, t.courses.insert? title = some (id, courses) ∧ t' = { t with courses } := by
  unfold createCourse at h
  split at h
  · rename_i hinsert
    cases h
    exact ⟨_, hinsert, rfl⟩
  · cases h

theorem eq_of_createSession {meeting : Meeting} {id : SessionId} (h : t.createSession meeting = .ok (id, t')) :
    meeting.course.all t.courses.contains = true ∧
      ∃ sessions, t.sessions.insert? meeting = some (id, sessions) ∧ t' = { t with sessions } := by
  unfold createSession at h
  split at h
  · rename_i hinsert
    split at h
    · rename_i hcourse
      cases h
      exact ⟨hcourse, _, hinsert, rfl⟩
    · cases h
  · cases h

theorem eq_of_assign {member : MemberId} {course : CourseId} {role : CourseRole}
    (h : t.assign member course role = .ok t') :
    (t.members.contains member = true ∧ t.courses.contains course = true) ∧
      t' = { t with courseRoles := Keyed.put (member, course) role t.courseRoles } := by
  unfold assign at h
  split at h
  · rename_i hparents
    cases h
    exact ⟨(Bool.and_eq_true _ _).mp hparents, rfl⟩
  · cases h

theorem eq_of_grant {member : MemberId} {role : SystemRole} (h : t.grant member role = .ok t') :
    t' = t ∨ (t.members.contains member = true ∧ t' = { t with systemRoles := t.systemRoles ++ [(member, role)] }) := by
  unfold grant at h
  split at h
  · cases h
    exact Or.inl rfl
  · split at h
    · rename_i hmember
      cases h
      exact Or.inr ⟨hmember, rfl⟩
    · cases h

theorem eq_of_delete {part : Part} {id : Int64} {n : Nat} (h : t.delete part id = .ok (n, t')) :
    t' = t ∨ (t.isHeld part id = false ∧ t' = t.without part id) := by
  unfold delete at h
  split at h
  · cases h
    exact Or.inl rfl
  · split at h
    · cases h
    · rename_i hfree
      cases h
      exact Or.inr ⟨Bool.eq_false_iff.2 hfree, rfl⟩

/-! ## References -/

/-- Every row that another row names exists. -/
structure Linked (t : Tables) : Prop where
  courseRoles : ∀ h ∈ t.courseRoles, t.members.contains h.1.1 = true ∧ t.courses.contains h.1.2 = true
  systemRoles : ∀ h ∈ t.systemRoles, t.members.contains h.1 = true
  sessions : ∀ row ∈ t.sessions.rows, ∀ course, row.2.course = some course → t.courses.contains course = true
  headers : ∀ h ∈ t.headers, t.sessions.contains h.session = true ∧ t.members.contains h.member = true
  entries : ∀ e ∈ t.entries, t.hasRecord e.record = true

theorem linked_empty : Linked empty := by
  refine ⟨?_, ?_, ?_, ?_, ?_⟩ <;> exact fun _ h => nomatch h

/-- More members and more courses do no harm. -/
theorem linked_grown (h : t.Linked) {members courses : Numbered String}
    (hm : ∀ {i}, t.members.contains i = true → members.contains i = true)
    (hc : ∀ {i}, t.courses.contains i = true → courses.contains i = true) : Linked { t with members, courses } :=
  ⟨fun role hr => (h.courseRoles role hr).imp hm hc, fun role hr => hm (h.systemRoles role hr),
    fun row hr course hn => hc (h.sessions row hr course hn), fun head hh => (h.headers head hh).imp_right hm, h.entries⟩

theorem linked_createSession (h : t.Linked) {meeting : Meeting} {id : SessionId}
    (hc : t.createSession meeting = .ok (id, t')) : t'.Linked := by
  obtain ⟨hcourse, sessions, hinsert, rfl⟩ := eq_of_createSession hc
  refine ⟨h.courseRoles, h.systemRoles, fun row hr course hn => ?_,
    fun head hh => (h.headers head hh).imp_left (Numbered.contains_insert? hinsert), h.entries⟩
  rw [Numbered.eq_of_insert? hinsert] at hr
  rcases List.mem_append.1 hr with hr | hr
  · exact h.sessions row hr course hn
  · rw [List.mem_singleton.1 hr] at hn
    rw [show meeting.course = some course from hn] at hcourse
    exact hcourse

theorem linked_assign (h : t.Linked) {member : MemberId} {course : CourseId} {role : CourseRole}
    (ha : t.assign member course role = .ok t') : t'.Linked := by
  obtain ⟨hparents, rfl⟩ := eq_of_assign ha
  refine ⟨fun held hr => ?_, h.systemRoles, h.sessions, h.headers, h.entries⟩
  rcases Keyed.of_mem_put hr with hkey | hold
  · rw [hkey]
    exact hparents
  · exact h.courseRoles held hold

theorem linked_grant (h : t.Linked) {member : MemberId} {role : SystemRole} (hg : t.grant member role = .ok t') :
    t'.Linked := by
  rcases eq_of_grant hg with rfl | ⟨hmember, rfl⟩
  · exact h
  · refine ⟨h.courseRoles, fun held hr => ?_, h.sessions, h.headers, h.entries⟩
    rcases List.mem_append.1 hr with hr | hr
    · exact h.systemRoles held hr
    · rw [List.mem_singleton.1 hr]
      exact hmember

/-! ### Removing a row -/

theorem ne_of_any_eq_false {α : Type} {xs : List α} {f : α → Int64} {id : Int64}
    (h : (xs.any fun x => f x = id) = false) {x : α} (hx : x ∈ xs) : f x ≠ id :=
  fun he => List.any_eq_false.1 h x hx (decide_eq_true he)

/-- A row that no log depends on can go, and what goes with it is what names it. -/
theorem linked_without (h : t.Linked) {part : Part} {id : Int64} (hfree : t.isHeld part id = false) :
    (t.without part id).Linked := by
  cases part with
  | members =>
    refine ⟨fun held hr => ?_, fun held hr => ?_, h.sessions, fun head hh => ?_, h.entries⟩
    · obtain ⟨hold, hne⟩ := List.mem_filter.1 hr
      exact (h.courseRoles held hold).imp_left fun hm => Numbered.contains_erase.2 ⟨hm, of_decide_eq_true hne⟩
    · obtain ⟨hold, hne⟩ := List.mem_filter.1 hr
      exact Numbered.contains_erase.2 ⟨h.systemRoles held hold, of_decide_eq_true hne⟩
    · have hne := ne_of_any_eq_false hfree hh
      exact (h.headers head hh).imp_right fun hm => Numbered.contains_erase.2 ⟨hm, hne⟩
  | courses =>
    refine ⟨fun held hr => ?_, h.systemRoles, fun row hr course hn => ?_, fun head hh => ?_, h.entries⟩
    · obtain ⟨hold, hne⟩ := List.mem_filter.1 hr
      exact (h.courseRoles held hold).imp_right fun hc => Numbered.contains_erase.2 ⟨hc, of_decide_eq_true hne⟩
    · obtain ⟨old, hold, rfl⟩ := List.mem_map.1 hr
      dsimp only at hn
      split at hn
      · cases hn
      · rename_i hother
        refine Numbered.contains_erase.2 ⟨h.sessions old hold course hn, ?_⟩
        rintro rfl
        exact hother hn
    · exact (h.headers head hh).imp_left fun hs => (Numbered.contains_map _).trans hs
  | sessions =>
    refine ⟨h.courseRoles, h.systemRoles, fun row hr => ?_, fun head hh => ?_, h.entries⟩
    · exact h.sessions row (List.mem_filter.1 hr).1
    · have hne := ne_of_any_eq_false hfree hh
      exact (h.headers head hh).imp_left fun hs => Numbered.contains_erase.2 ⟨hs, hne⟩
  | records =>
    refine ⟨h.courseRoles, h.systemRoles, h.sessions, fun head hh => h.headers head (List.mem_filter.1 hh).1,
      fun e he => ?_⟩
    have hne : e.record ≠ id.toInt := fun heq => List.any_eq_false.1 hfree e he (decide_eq_true heq)
    obtain ⟨head, hh, hid⟩ := List.any_eq_true.1 (h.entries e he)
    have hsame := of_decide_eq_true hid
    exact List.any_eq_true.2 ⟨head, List.mem_filter.2 ⟨hh, decide_eq_true (hsame ▸ hne)⟩, hid⟩

theorem linked_apply (h : t.Linked) {c : Chore} (hc : t.apply c = .ok t') : t'.Linked := by
  cases c with
  | createMember nickname =>
    obtain ⟨id, hcreate⟩ := eq_of_map hc
    obtain ⟨members, hinsert, rfl⟩ := eq_of_createMember hcreate
    exact linked_grown h (Numbered.contains_insert? hinsert) fun hc => hc
  | createCourse title =>
    obtain ⟨id, hcreate⟩ := eq_of_map hc
    obtain ⟨courses, hinsert, rfl⟩ := eq_of_createCourse hcreate
    exact linked_grown h (fun hm => hm) (Numbered.contains_insert? hinsert)
  | createSession meeting =>
    obtain ⟨id, hcreate⟩ := eq_of_map hc
    exact linked_createSession h hcreate
  | assign member course role => exact linked_assign h hc
  | grant member role => exact linked_grant h hc
  | delete part id =>
    obtain ⟨n, hdelete⟩ := eq_of_map hc
    rcases eq_of_delete hdelete with rfl | ⟨hfree, rfl⟩
    · exact h
    · exact linked_without h hfree

theorem linked_perform (h : t.Linked) (c : Chore) : (t.perform c).Linked := by
  rcases perform_cases t c with hsame | hdone
  · rw [hsame]
    exact h
  · exact linked_apply h hdone

/-! ## Appends -/

theorem record_of_mem_newEntries {r : Record} {id : RecordId} {e : Entry} (h : e ∈ newEntries r id) :
    e.record = id := by
  obtain ⟨p, -, rfl⟩ := List.mem_map.1 h
  rfl

theorem hasRecord_raised (t : Tables) (id : RecordId) (version : Version) (i : RecordId) :
    (t.raised id version).hasRecord i = t.hasRecord i := by
  unfold hasRecord raised
  rw [List.any_map]
  refine congrArg (fun p => t.headers.any p) (funext fun head => ?_)
  simp only [Function.comp_apply]
  split <;> rfl

theorem linked_append (h : t.Linked) (r : Record) : (t.append r).state.Linked := by
  rcases state_append t r with hsame | ⟨-, ⟨-, hparents, hopened⟩ | ⟨header, hheader, -, hraised⟩⟩
  · rw [hsame]
    exact h
  · rw [hopened]
    refine ⟨h.courseRoles, h.systemRoles, h.sessions, fun head hh => ?_, fun e he => ?_⟩
    · rcases List.mem_append.1 hh with hh | hh
      · exact h.headers head hh
      · rw [List.mem_singleton.1 hh]
        exact (Bool.and_eq_true _ _).mp hparents
    · show (t.headers ++ [_]).any _ = true
      rw [List.any_append, Bool.or_eq_true]
      rcases List.mem_append.1 he with he | he
      · exact Or.inl (h.entries e he)
      · exact Or.inr (List.any_eq_true.2 ⟨_, List.mem_singleton_self _, decide_eq_true (record_of_mem_newEntries he).symm⟩)
  · rw [hraised]
    refine ⟨h.courseRoles, h.systemRoles, h.sessions, fun head hh => ?_, fun e he => ?_⟩
    · obtain ⟨old, hold, rfl⟩ := List.mem_map.1 hh
      split <;> exact h.headers old hold
    · show (t.raised header.id r.version).hasRecord e.record = true
      rw [hasRecord_raised]
      rcases List.mem_append.1 he with he | he
      · exact h.entries e he
      · rw [record_of_mem_newEntries he]
        exact List.any_eq_true.2 ⟨header, hheader, decide_eq_true rfl⟩

end Tables

end Rollbook
