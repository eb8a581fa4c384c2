import Mathlib.Data.List.Nodup
import Mathlib.Logic.Relation
import Rollbook.Proofs.Atomic
import Rollbook.Proofs.Links
/-
  Rollbook.Proofs.Lasting — what is stored outlasts every delete.

  Members, courses and sessions come and go while logs are written; appends, calls and
  chores may follow on each other in any order. No row of a log is ever lost by it. What
  carries it is that there is an event behind every header (`Sealed`), put there by the
  append that has opened the log: so a header cannot be deleted, nor an event lose it.

  There are two kinds of runs.

  - In a run of tables (`Tables.Run`) any record may be appended, also one that was made
    up. Headers stay, except that their versions rise, event rows stay as they are, and
    no reference dangles.
  - In a run of a world (`World.Run`) the records that are appended were found in the
    store or are new, and were changed by transitions. Then logs last as well: what is
    loaded of a log later goes on from what was loaded of it before.

  `lasting_of_run` says both. `exists_changed_of_run` shows what does not last: versions,
  and, where a made-up record leaves a gap behind the events of a log, their order.
-/

namespace Rollbook

open Ledger Plan World

namespace Tables

variable {t t' : Tables}

/-! ## Runs of tables -/

/-- An append of a record, whatever it says, or a chore. -/
inductive Turn (t : Tables) : Tables → Prop
  | append (r : Record) : Turn t (t.append r).state
  | chore (c : Chore) : Turn t (t.perform c)

abbrev Run : Tables → Tables → Prop := Relation.ReflTransGen Turn

/-- No reference dangles, and every header has a number of its own and an event behind it. -/
structure Sealed (t : Tables) : Prop extends Linked t where
  backed : ∀ h ∈ t.headers, ∃ e ∈ t.entries, e.record = h.id
  numbered : (t.headers.map (·.id)).Nodup
  issued : ∀ h ∈ t.headers, h.id ≤ t.lastRecord

theorem sealed_empty : Sealed empty :=
  ⟨linked_empty, (fun _ h => nomatch h), List.nodup_nil, fun _ h => nomatch h⟩

/-- A chore touches no log, except that it may delete a header with no event behind it. -/
theorem logs_of_apply {c : Chore} (hc : t.apply c = .ok t') :
    t'.entries = t.entries ∧ t'.lastRecord = t.lastRecord ∧ (t'.headers = t.headers ∨
      ∃ id, t.isHeld .records id = false ∧ t'.headers = t.headers.filter fun h => h.id ≠ id.toInt) := by
  cases c with
  | createMember nickname =>
    obtain ⟨id, hcreate⟩ := eq_of_map hc
    obtain ⟨members, -, rfl⟩ := eq_of_createMember hcreate
    exact ⟨rfl, rfl, Or.inl rfl⟩
  | createCourse title =>
    obtain ⟨id, hcreate⟩ := eq_of_map hc
    obtain ⟨courses, -, rfl⟩ := eq_of_createCourse hcreate
    exact ⟨rfl, rfl, Or.inl rfl⟩
  | createSession meeting =>
    obtain ⟨id, hcreate⟩ := eq_of_map hc
    obtain ⟨-, sessions, -, rfl⟩ := eq_of_createSession hcreate
    exact ⟨rfl, rfl, Or.inl rfl⟩
  | assign member course role =>
    obtain ⟨-, rfl⟩ := eq_of_assign hc
    exact ⟨rfl, rfl, Or.inl rfl⟩
  | grant member role =>
    rcases eq_of_grant hc with rfl | ⟨-, rfl⟩ <;> exact ⟨rfl, rfl, Or.inl rfl⟩
  | delete part id =>
    obtain ⟨n, hdelete⟩ := eq_of_map hc
    rcases eq_of_delete hdelete with rfl | ⟨hfree, rfl⟩
    · exact ⟨rfl, rfl, Or.inl rfl⟩
    · cases part with
      | members | courses | sessions => exact ⟨rfl, rfl, Or.inl rfl⟩
      | records => exact ⟨rfl, rfl, Or.inr ⟨id, hfree, rfl⟩⟩

/-- A header with an event behind it cannot be deleted. -/
theorem logs_apply (h : t.Sealed) {c : Chore} (hc : t.apply c = .ok t') :
    t'.headers = t.headers ∧ t'.entries = t.entries ∧ t'.lastRecord = t.lastRecord := by
  obtain ⟨hentries, hlast, hsame | ⟨id, hfree, hfilter⟩⟩ := logs_of_apply hc
  · exact ⟨hsame, hentries, hlast⟩
  · refine ⟨hfilter.trans (List.filter_eq_self.2 fun head hh => decide_eq_true fun hid => ?_), hentries, hlast⟩
    obtain ⟨e, he, hrecord⟩ := h.backed head hh
    exact List.any_eq_false.1 hfree e he (decide_eq_true (hrecord.trans hid))

theorem logs_perform (h : t.Sealed) (c : Chore) : (t.perform c).headers = t.headers ∧
    (t.perform c).entries = t.entries ∧ (t.perform c).lastRecord = t.lastRecord := by
  rcases perform_cases t c with hsame | hdone
  · rw [hsame]
    exact ⟨rfl, rfl, rfl⟩
  · exact logs_apply h hdone

theorem sealed_perform (h : t.Sealed) (c : Chore) : (t.perform c).Sealed := by
  obtain ⟨hheaders, hentries, hlast⟩ := logs_perform h c
  refine ⟨linked_perform h.toLinked c, ?_, ?_, ?_⟩
  · rw [hheaders, hentries]
    exact h.backed
  · rw [hheaders]
    exact h.numbered
  · rw [hheaders, hlast]
    exact h.issued

theorem newEntries_ne_nil {r : Record} (h : r.uncommitted ≠ []) (id : RecordId) : newEntries r id ≠ [] := by
  intro hnil
  have hlength := length_newEntries r id
  rw [hnil] at hlength
  exact h (List.length_eq_zero_iff.1 hlength.symm)

theorem ids_raised (t : Tables) (id : RecordId) (version : Version) :
    (t.raised id version).headers.map (·.id) = t.headers.map (·.id) := by
  unfold raised
  rw [List.map_map]
  refine List.map_congr_left fun head _ => ?_
  simp only [Function.comp_apply]
  split <;> rfl

/-- The header of a new log gets a number that none has. -/
theorem numbered_append (hnumbered : (t.headers.map (·.id)).Nodup) (hissued : ∀ h ∈ t.headers, h.id ≤ t.lastRecord)
    (r : Record) : ((t.append r).state.headers.map (·.id)).Nodup ∧
      ∀ h ∈ (t.append r).state.headers, h.id ≤ (t.append r).state.lastRecord := by
  rcases state_append t r with hsame | ⟨-, ⟨-, -, hopened⟩ | ⟨header, -, -, hraised⟩⟩
  · rw [hsame]
    exact ⟨hnumbered, hissued⟩
  · rw [hopened]
    refine ⟨?_, fun head hh => ?_⟩
    · show ((t.opened r).headers.map (·.id)).Nodup
      unfold opened
      rw [List.map_append, List.nodup_append]
      refine ⟨hnumbered, List.nodup_singleton _, fun i hi j hj => ?_⟩
      obtain ⟨old, hold, rfl⟩ := List.mem_map.1 hi
      have hle := hissued old hold
      rw [List.mem_singleton.1 hj]
      show old.id ≠ t.lastRecord + 1
      lia
    · show head.id ≤ t.lastRecord + 1
      rcases List.mem_append.1 hh with hh | hh
      · have hle := hissued head hh
        lia
      · obtain rfl := List.mem_singleton.1 hh
        exact Int.le_refl _
  · rw [hraised]
    have hids := ids_raised t header.id r.version
    refine ⟨?_, fun head hh => ?_⟩
    · rw [hids]
      exact hnumbered
    · obtain ⟨old, hmem, hid⟩ := List.mem_map.1 (hids ▸ List.mem_map_of_mem hh)
      exact hid ▸ hissued old hmem

theorem sealed_append (h : t.Sealed) (r : Record) : (t.append r).state.Sealed := by
  obtain ⟨hnumbered, hissued⟩ := numbered_append h.numbered h.issued r
  refine ⟨linked_append h.toLinked r, ?_, hnumbered, hissued⟩
  rcases state_append t r with hsame | ⟨hu, ⟨-, -, hopened⟩ | ⟨header, -, -, hraised⟩⟩
  · rw [hsame]
    exact h.backed
  · rw [hopened]
    intro head hh
    rcases List.mem_append.1 hh with hh | hh
    · obtain ⟨e, he, hrecord⟩ := h.backed head hh
      exact ⟨e, List.mem_append_left _ he, hrecord⟩
    · -- no log is opened by an append without an event
      obtain ⟨e, he⟩ := List.exists_mem_of_ne_nil _ (newEntries_ne_nil hu (t.lastRecord + 1))
      rw [List.mem_singleton.1 hh]
      exact ⟨e, List.mem_append_right _ he, record_of_mem_newEntries he⟩
  · rw [hraised]
    intro head hh
    obtain ⟨old, hmem, hid⟩ := List.mem_map.1 (ids_raised t header.id r.version ▸ List.mem_map_of_mem hh)
    obtain ⟨e, he, hrecord⟩ := h.backed old hmem
    exact ⟨e, List.mem_append_left _ he, hrecord.trans hid⟩

theorem sealed_of_run (hs : t.Sealed) (h : Run t t') : t'.Sealed := by
  induction h with
  | refl => exact hs
  | tail _ hturn ih =>
    cases hturn with
    | append r => exact sealed_append ih r
    | chore c => exact sealed_perform ih c

/-! ### Rows of logs -/

/-- The headers of `t` are still there in `t'`, under a version that may be higher, and so are its event rows,
    in front of all others. -/
structure Lasts (t t' : Tables) : Prop where
  headers : ∀ h ∈ t.headers, ∃ n : Nat, { h with version := h.version + n } ∈ t'.headers
  entries : t.entries <+: t'.entries

theorem lasts_of_logs (hh : t'.headers = t.headers) (he : t'.entries = t.entries) : t.Lasts t' :=
  ⟨fun h hmem => ⟨0, by rw [hh]; simpa using hmem⟩, he ▸ List.prefix_rfl⟩

theorem lasts_trans {t'' : Tables} (h : t.Lasts t') (h' : t'.Lasts t'') : t.Lasts t'' := by
  refine ⟨fun head hh => ?_, h.entries.trans h'.entries⟩
  obtain ⟨n, hn⟩ := h.headers head hh
  obtain ⟨m, hm⟩ := h'.headers _ hn
  refine ⟨n + m, ?_⟩
  rw [Int.natCast_add, ← Int.add_assoc]
  exact hm

theorem lasts_append (hs : t.Sealed) (r : Record) : t.Lasts (t.append r).state := by
  rcases state_append t r with hsame | ⟨-, ⟨-, -, hopened⟩ | ⟨header, hheader, hversion, hraised⟩⟩
  · rw [hsame]
    exact lasts_of_logs rfl rfl
  · rw [hopened]
    refine ⟨fun h hh => ⟨0, List.mem_append_left _ ?_⟩, List.prefix_append _ _⟩
    simpa using hh
  · rw [hraised]
    refine ⟨fun h hh => ?_, List.prefix_append _ _⟩
    by_cases hid : h.id = header.id
    · -- the header that is raised is the one that was compared, as no other has its number
      obtain rfl := List.inj_on_of_nodup_map hs.numbered hh hheader hid
      exact ⟨1, List.mem_map.2 ⟨h, hh, by rw [if_pos rfl, ← hversion]; rfl⟩⟩
    · exact ⟨0, List.mem_map.2 ⟨h, hh, by rw [if_neg hid]; simp⟩⟩

theorem lasts_of_run (hs : t.Sealed) (h : Run t t') : t.Lasts t' := by
  induction h with
  | refl => exact lasts_of_logs rfl rfl
  | tail hrun hturn ih =>
    have hsealed := sealed_of_run hs hrun
    cases hturn with
    | append r => exact lasts_trans ih (lasts_append hsealed r)
    | chore c =>
      obtain ⟨hheaders, hentries, -⟩ := logs_perform hsealed c
      exact lasts_trans ih (lasts_of_logs hheaders hentries)

/-! ### Deletes -/

/-- The course is gone from `t'`. -/
structure Dissolved (t : Tables) (course : CourseId) (t' : Tables) : Prop where
  courses : t'.courses = t.courses.erase course
  /-- Its roles are gone, and no others. -/
  courseRoles : t'.courseRoles = t.courseRoles.filter fun held => held.1.2 ≠ course
  /-- Its sessions stand alone, and nothing else is different about sessions. -/
  sessions : t'.sessions = t.sessions.map fun m => if m.course = some course then { m with course := none } else m
  rest : t'.members = t.members ∧ t'.systemRoles = t.systemRoles ∧ t'.headers = t.headers ∧ t'.entries = t.entries

/-- What a delete may do, and what it may not. -/
structure Guarded (t : Tables) : Prop where
  refused : ∀ part id e, t.delete part id = .error e → t.perform (.delete part id) = t
  log : ∀ h ∈ t.headers, t.delete .members h.member = .error .childrenLeft ∧
    t.delete .sessions h.session = .error .childrenLeft ∧
    ∀ id : Int64, id.toInt = h.id → t.delete .records id = .error .childrenLeft
  /-- The delete of a course is never refused, not even if there is none. -/
  course : ∀ course, ∃ n t', t.delete .courses course = .ok (n, t') ∧ t.perform (.delete .courses course) = t' ∧
    t.Dissolved course t'

theorem delete_held {part : Part} {id : Int64} (hrow : t.hasRow part id = true) (hheld : t.isHeld part id = true) :
    t.delete part id = .error .childrenLeft := by
  unfold delete
  rw [hrow, hheld]
  rfl

theorem perform_delete {part : Part} {id : Int64} {n : Nat} (h : t.delete part id = .ok (n, t')) :
    t.perform (.delete part id) = t' := perform_done (congrArg (Except.map Prod.snd) h)

/-- Without a reference to it a course that does not exist is gone already. -/
theorem dissolved_missing (h : t.Linked) {course : CourseId} (hno : ¬ t.courses.contains course = true) :
    t.Dissolved course t := by
  refine ⟨(Numbered.erase_eq_self hno).symm, (List.filter_eq_self.2 fun held hr => ?_).symm,
    (Numbered.map_eq_self fun row hr => if_neg fun hn => hno (h.sessions row hr course hn)).symm, rfl, rfl, rfl, rfl⟩
  refine decide_eq_true fun hcourse => hno ?_
  rw [← hcourse]
  exact (h.courseRoles held hr).2

theorem guarded_of_sealed (h : t.Sealed) : t.Guarded := by
  refine ⟨fun part id e hrefused => ?_, fun head hh => ⟨?_, ?_, fun id hid => ?_⟩, fun course => ?_⟩
  · exact perform_refused (congrArg (Except.map Prod.snd) hrefused)
  · exact delete_held (h.headers head hh).2 (List.any_eq_true.2 ⟨head, hh, decide_eq_true rfl⟩)
  · exact delete_held (h.headers head hh).1 (List.any_eq_true.2 ⟨head, hh, decide_eq_true rfl⟩)
  · obtain ⟨e, he, hrecord⟩ := h.backed head hh
    exact delete_held (List.any_eq_true.2 ⟨head, hh, decide_eq_true hid.symm⟩)
      (List.any_eq_true.2 ⟨e, he, decide_eq_true (hrecord.trans hid.symm)⟩)
  · by_cases hrow : t.courses.contains course = true
    · have hdelete : t.delete .courses course = .ok (1, t.without .courses course) := by
        unfold delete
        rw [show t.hasRow .courses course = true from hrow]
        rfl
      exact ⟨1, _, hdelete, perform_delete hdelete, rfl, rfl, rfl, rfl, rfl, rfl, rfl⟩
    · have hdelete : t.delete .courses course = .ok (0, t) := by
        unfold delete
        rw [show t.hasRow .courses course = false from Bool.eq_false_iff.2 hrow]
        rfl
      exact ⟨0, t, hdelete, perform_delete hdelete, dissolved_missing h.toLinked hrow⟩

end Tables

/-! ## Runs of a world -/

/-- Nothing was ever done. -/
def World.opening (now : Instant) : World := ⟨.tables .empty, now, [], [], []⟩

/-- A turn of everyone around: members, courses, sessions and roles are changed by chores only. -/
inductive World.Turn (R : Rules) (w : World) : World → Prop
  | step {w' : World} : w.Step R w' → w.store.SameRolls w'.store → Turn R w w'
  | asked (i : Inquiry) : Turn R w { w with store := (i.plan.run Store.backend w.clock w.store).state }
  | chore {t : Tables} (c : Tables.Chore) : w.store = .tables t → Turn R w { w with store := .tables (t.perform c) }

abbrev World.Run (R : Rules) : World → World → Prop := Relation.ReflTransGen (World.Turn R)

/-- What is found later goes on from what was found before, by the events of the records that were appended in
    between; each of them has raised the version by one. -/
structure Continues (found found' : Option Record) (posts : List Record) : Prop where
  log : logOf found' = logOf found ++ log posts
  version : versionOf found' = versionOf found + posts.length
  id : ∀ k, found = some k → ∃ k', found' = some k' ∧ k'.id = k.id

variable {R : Rules} {w w' : World} {t : Tables}

theorem eq_of_same {t' : Tables} (hrolls : (Store.tables t).SameRolls (.tables t'))
    (hlogs : (Store.tables t).SameLogs (.tables t')) : t' = t := by
  obtain ⟨members, courses, sessions, courseRoles, systemRoles, last, headers, entries⟩ := t'
  obtain ⟨rfl, rfl, rfl, rfl, rfl⟩ := hrolls
  obtain ⟨rfl, rfl, rfl⟩ := hlogs
  rfl

/-- Whatever turn a world takes, its tables take one or none. -/
theorem tables_of_turn (h : w.Turn R w') (ht : w.store = .tables t) :
    ∃ t', w'.store = .tables t' ∧ Tables.Run t t' := by
  cases h with
  | step hstep hrolls =>
    rcases store_of_step hstep with hsame | ⟨r, happend⟩ | hlogs
    · exact ⟨t, hsame.trans ht, .refl⟩
    · rw [ht] at happend
      exact ⟨_, happend, .single (.append r)⟩
    · rw [ht] at hrolls hlogs
      cases hst : w'.store with
      | memory m =>
        rw [hst] at hlogs
        cases hlogs
      | tables t' =>
        rw [hst] at hrolls hlogs
        exact ⟨t', rfl, eq_of_same hrolls hlogs ▸ .refl⟩
  | asked i => exact ⟨t, (run_quiet calm_store i.quiet).trans ht, .refl⟩
  | chore c ht' =>
    cases ht'.symm.trans ht
    exact ⟨_, rfl, .single (.chore c)⟩

theorem tables_of_run (h : World.Run R w w') (ht : w.store = .tables t) :
    ∃ t', w'.store = .tables t' ∧ Tables.Run t t' := by
  induction h with
  | refl => exact ⟨t, ht, .refl⟩
  | tail _ hturn ih =>
    obtain ⟨t₁, ht₁, hrun₁⟩ := ih
    obtain ⟨t₂, ht₂, hrun₂⟩ := tables_of_turn hturn ht₁
    exact ⟨t₂, ht₂, hrun₁.trans hrun₂⟩

/-- A turn is a step: as nobody can delete a log, a chore is one of administration. -/
theorem step_of_turn (ht : w.store = .tables t) (hs : t.Sealed) (h : w.Turn R w') : w.Step R w' := by
  cases h with
  | step hstep _ => exact hstep
  | asked i =>
    refine .administered ?_
    rw [run_quiet calm_store i.quiet]
    exact Store.sameLogs_refl w.store
  | chore c ht' =>
    cases ht'.symm.trans ht
    refine .administered ?_
    rw [ht]
    exact Tables.logs_perform hs c

theorem sealed_of_opening {now : Instant} (h : World.Run R (opening now) w) :
    ∃ t, w.store = .tables t ∧ Tables.Run .empty t ∧ t.Sealed := by
  obtain ⟨t, ht, hrun⟩ := tables_of_run h rfl
  exact ⟨t, ht, hrun, Tables.sealed_of_run Tables.sealed_empty hrun⟩

theorem reach_of_run {now : Instant} (h : World.Run R (opening now) w) : Reach R w := by
  induction h with
  | refl => exact .start now ⟨rfl, rfl, rfl⟩
  | tail hrun hturn ih =>
    obtain ⟨t, ht, -, hs⟩ := sealed_of_opening hrun
    exact .step ih (step_of_turn ht hs hturn)

theorem posted_of_run {now : Instant} (hw : World.Run R (opening now) w) (h : World.Run R w w') :
    w.posted <+: w'.posted := by
  induction h with
  | refl => exact List.prefix_rfl
  | tail hrun hturn ih =>
    have hbefore := hw.trans hrun
    obtain ⟨t, ht, -, hs⟩ := sealed_of_opening hbefore
    obtain ⟨s, hi⟩ := inv_of_reach (kept_true R) (reach_of_run hbefore)
    rcases moves_of_step (kept_true R) hi (step_of_turn ht hs hturn) with ⟨hposted, -⟩ | ⟨p, hposted, -⟩
    · rw [hposted]
      exact ih
    · rw [hposted]
      exact ih.trans (List.prefix_append _ _)

theorem of_concat (ledger new : List Record) (session : SessionId) (member : MemberId) :
    of (ledger ++ new) session member = of ledger session member ++ of new session member := List.filter_append ..

/-- What is found goes on from what was found if the headers last and the ledger has grown. -/
theorem continues_of_lasts {t' : Tables} {s s' : Shelf} {new : List Record} (hr : t.Represents s)
    (hr' : t'.Represents s') (hb : s.Balanced w.ledger) (hb' : s'.Balanced w'.ledger)
    (hgrown : w'.ledger = w.ledger ++ new) (hl : t.Lasts t') (session : SessionId) (member : MemberId) :
    Continues (s.find session member) (s'.find session member) (of new session member) := by
  refine ⟨?_, ?_, fun k hk => ?_⟩
  · rw [logOf_find hb', logOf_find hb, hgrown, of_concat]
    exact List.flatMap_append
  · have hversion := versionOf_find s (.new session member)
    have hversion' := versionOf_find s' (.new session member)
    rw [Shelf.found_eq hb] at hversion
    rw [Shelf.found_eq hb', hgrown, of_concat, List.length_append, Int.natCast_add] at hversion'
    exact hversion'.trans (congrArg (· + _) hversion.symm)
  · obtain ⟨k₀, hk₀, rfl⟩ := Option.map_eq_some_iff.1 hk
    obtain ⟨n, hn⟩ := hl.headers _ (Tables.mem_of_stored hr hk₀)
    obtain ⟨k₁, hk₁, he⟩ := Tables.exists_stored_of_mem hr' hn
    have hid : k₀.id = k₁.id := congrArg Header.id he
    exact ⟨_, Option.map_eq_some_iff.2 ⟨k₁, hk₁, rfl⟩, congrArg some hid.symm⟩

/-- In every run of tables, whatever is appended, the headers and the event rows last, no reference dangles, a
    refused delete does nothing, and the delete of a course takes its roles and leaves its sessions standing alone.
    In every run of a world the logs last too. -/
theorem lasting_of_run :
    (∀ t t', Tables.Run .empty t → Tables.Run t t' → t.Lasts t' ∧ t'.Linked ∧ t'.Guarded) ∧
      ∀ (R : Rules) (now : Instant) (w w' : World), World.Run R (opening now) w → World.Run R w w' →
        ∃ t t' new, w.store = .tables t ∧ w'.store = .tables t' ∧ Tables.Run .empty t ∧ Tables.Run t t' ∧
          w'.ledger = w.ledger ++ new ∧ ∀ session member, ∃ found found',
            t.find session member = .ok found ∧ t'.find session member = .ok found' ∧
              Continues found found' (of new session member) := by
  refine ⟨fun t t' h h' => ?_, fun R now w w' h h' => ?_⟩
  · have hs := Tables.sealed_of_run Tables.sealed_empty h
    have hs' := Tables.sealed_of_run hs h'
    exact ⟨Tables.lasts_of_run hs h', hs'.toLinked, Tables.guarded_of_sealed hs'⟩
  · obtain ⟨t, ht, hrun, hs⟩ := sealed_of_opening h
    obtain ⟨t', ht', hrun'⟩ := tables_of_run h' ht
    obtain ⟨new, hnew⟩ := posted_of_run h h'
    obtain ⟨s, hi⟩ := inv_of_reach (kept_true R) (reach_of_run h)
    obtain ⟨s', hi'⟩ := inv_of_reach (kept_true R) (reach_of_run (h.trans h'))
    have hr := hi.shown
    have hr' := hi'.shown
    rw [ht] at hr
    rw [ht'] at hr'
    have hgrown : w'.ledger = w.ledger ++ new.map Posting.record := by
      unfold World.ledger
      rw [← hnew, List.map_append]
    exact ⟨t, t', _, ht, ht', hrun, hrun', hgrown, fun session member => ⟨_, _, Tables.find_eq hr session member,
      Tables.find_eq hr' session member, continues_of_lasts hr hr' hi.balanced hi'.balanced hgrown
        (Tables.lasts_of_run hs hrun') session member⟩⟩

/-! ## A lesson -/

/-- A member, a course, a session of it and the role of the member in it. -/
def lesson : Tables where
  members := ⟨1, [(1, "Ann")]⟩
  courses := ⟨1, [(1, "Logic")]⟩
  sessions := ⟨1, [(1, ⟨some 1, "One", morning⟩)]⟩
  courseRoles := [((1, 1), .mentee)]
  systemRoles := []
  lastRecord := 0
  headers := []
  entries := []

theorem run_chores (ht : w.store = .tables t) (cs : List Tables.Chore) :
    World.Run R w { w with store := .tables (cs.foldl Tables.perform t) } := by
  induction cs generalizing w t with
  | nil =>
    obtain ⟨st, now, held, calls, posted⟩ := w
    cases ht
    exact .refl
  | cons c cs ih => exact .head (.chore c ht) (ih rfl)

theorem lesson_eq : [Tables.Chore.createMember "Ann", .createCourse "Logic",
    .createSession ⟨some 1, "One", morning⟩, .assign 1 1 .mentee].foldl Tables.perform .empty = lesson := rfl

theorem run_lesson (R : Rules) : World.Run R (opening morning) ⟨.tables lesson, morning, [], [], []⟩ := by
  have hrun := run_chores (R := R) (w := opening morning) rfl [Tables.Chore.createMember "Ann", .createCourse "Logic",
    .createSession ⟨some 1, "One", morning⟩, .assign 1 1 .mentee]
  rw [lesson_eq] at hrun
  exact hrun

/-- The member has come in. -/
def entered : Record := (Record.new 1 1).add (.checkedIn morning)

/-- The member has come in and gone. -/
def gone : Record := (entered.stored 1).add (.checkedOut morning)

/-- The lesson with the log of the member. -/
def attended : Tables := (lesson.append entered).state

/-- The same after its course has gone. -/
def orphaned : Tables :=
  { attended with courses := ⟨1, []⟩, courseRoles := [], sessions := ⟨1, [(1, ⟨none, "One", morning⟩)]⟩ }

def completed : Tables := (orphaned.append gone).state

theorem orphaned_eq :
    [Tables.Chore.delete .members 1, .delete .courses 1, .delete .records 1].foldl Tables.perform attended = orphaned :=
  rfl

theorem exists_run_completed : ∃ w w', World.Run ⟨true, true⟩ (opening morning) w ∧ World.Run ⟨true, true⟩ w w' ∧
    w.store = .tables attended ∧ w'.store = .tables completed ∧ w.ledger = [entered] ∧ w'.ledger = [entered, gone] := by
  have hstart := run_lesson ⟨true, true⟩
  have hfresh := hstart.tail (.step (.fresh 1 1 rfl) (Store.sameRolls_refl _))
  have hin : Command.Transition (.new 1 1) [.time morning] entered (.checkIn 1 1) := ⟨morning, rfl, rfl⟩
  have hentered := hfresh.tail (.step (.changed rfl List.mem_cons_self hin (by simp)) (Store.sameRolls_refl _))
  have hsaved : (Store.tables lesson).Answers (.append entered) (entered.stored 1) := rfl
  have hopened := hentered.tail (.step (.saved rfl List.mem_cons_self hsaved) (sameRolls_append _ _))
  have hdeletes := run_chores (R := ⟨true, true⟩)
    (w := ⟨.tables attended, morning, [entered.stored 1, entered, .new 1 1], [], [⟨entered, none⟩]⟩) rfl
    [.delete .members 1, .delete .courses 1, .delete .records 1]
  rw [orphaned_eq] at hdeletes
  have hout : Command.Transition (entered.stored 1) [.time morning] gone (.checkOut 1 1) := ⟨morning, rfl, rfl⟩
  have hgone := hdeletes.tail (.step (.changed rfl List.mem_cons_self hout (by simp)) (Store.sameRolls_refl _))
  have hsaved' : (Store.tables orphaned).Answers (.append gone) (gone.stored 1) := rfl
  have hclosed := hgone.tail (.step (.saved rfl List.mem_cons_self hsaved') (sameRolls_append _ _))
  exact ⟨_, _, hopened, hclosed, rfl, rfl, rfl, rfl⟩

/-- The course is deleted while the member is there, and the log goes on. -/
theorem lasting_of_run_dissolved : ∃ (w w' : World) (t t' : Tables),
    World.Run ⟨true, true⟩ (opening morning) w ∧ World.Run ⟨true, true⟩ w w' ∧
    w.store = .tables t ∧ w'.store = .tables t' ∧ t.courseRoles = [((1, 1), .mentee)] ∧ t'.courseRoles = [] ∧
    t'.sessions.rows = [(1, ⟨none, "One", morning⟩)] ∧ t.headers = [⟨1, 1, 1, 1⟩] ∧ t'.headers = [⟨1, 1, 1, 2⟩] ∧
    t.Lasts t' ∧ t'.Linked ∧ t'.Guarded ∧ ∃ found found', t.find 1 1 = .ok found ∧ t'.find 1 1 = .ok found' ∧
      Continues found found' [gone] := by
  obtain ⟨w, w', hrun, hrun', ht, ht', hledger, hledger'⟩ := exists_run_completed
  obtain ⟨hrows, hlogs⟩ := lasting_of_run
  obtain ⟨t, t', new, hst, hst', htables, htables', hgrown, hcontinues⟩ := hlogs _ _ w w' hrun hrun'
  obtain rfl := Store.tables.inj (hst.symm.trans ht)
  obtain rfl := Store.tables.inj (hst'.symm.trans ht')
  obtain ⟨hlasts, hlinked, hguarded⟩ := hrows _ _ htables htables'
  obtain rfl : [gone] = new := by
    rw [hledger, hledger'] at hgrown
    exact (List.cons.inj hgrown).2
  exact ⟨w, w', _, _, hrun, hrun', ht, ht', rfl, rfl, rfl, rfl, rfl, hlasts, hlinked, hguarded, hcontinues 1 1⟩

/-! ## What does not last -/

namespace Tables

/-- Rows of events in any places. -/
def placed (id : RecordId) (places : List (Int × Event)) : List Entry :=
  places.map fun (i, e) => ⟨id, i, e.kind, e.payload, e.time⟩

/-- A log is read in the order of the places. -/
theorem find_of_placed {session : SessionId} {member : MemberId} {h : Header} {l : List (Int × Event)}
    (hh : t.header? session member = some h) (hr : t.entriesOf h.id = placed h.id l)
    (hl : ∀ p ∈ l, fitsPosition p.1 = true) :
    t.find session member = .ok (some (.rehydrate h.id h.session h.member h.version (l.map Prod.snd))) := by
  have hfits : ((placed h.id l).all fun e => fitsPosition e.position) = true := by
    unfold placed
    rw [List.all_map]
    exact List.all_eq_true.2 hl
  have htake : t.takeEntries h.id = .ok (placed h.id l) := by
    unfold takeEntries
    rw [hr, if_pos hfits]
  unfold find load
  rw [hh]
  simp only [htake, placed, mapM_payload]
  rfl

/-- A row that comes last is sorted in between two others. -/
theorem sorted_between {a b c : Entry} (hac : a.position ≤ c.position) (hcb : c.position < b.position) :
    [a, b, c].mergeSort (fun a b => a.position ≤ b.position) = [a, c, b] := by
  have hab : a.position ≤ b.position := Int.le_trans hac (Int.le_of_lt hcb)
  have hbc : ¬ b.position ≤ c.position := Int.not_le.2 hcb
  simp [List.mergeSort, List.MergeSort.Internal.splitInTwo, hac, hab, hbc]

end Tables

/-- A record that claims more events than are stored of it. -/
def forged : Record :=
  (Record.rehydrate 1 1 1 1 [.checkedIn morning, .checkedOut morning, .checkedIn morning]).add (.checkedOut morning)

/-- What is found behind it, and one event more. -/
def returned : Record :=
  (Record.rehydrate 1 1 1 2 [.checkedIn morning, .checkedOut morning]).add (.checkedIn morning)

/-- The version of a header rises; and where a record was appended that was made up, a later event may stand before
    an earlier one. -/
theorem exists_changed_of_run :
    (∃ (w w' : World) (t t' : Tables) (h : Header), World.Run ⟨true, true⟩ (opening morning) w ∧
      World.Run ⟨true, true⟩ w w' ∧ w.store = .tables t ∧ w'.store = .tables t' ∧ h ∈ t.headers ∧ h ∉ t'.headers) ∧
    ∃ (t t' : Tables) (k k' : Record), Tables.Run .empty t ∧ Tables.Run t t' ∧ t.find 1 1 = .ok (some k) ∧
      t'.find 1 1 = .ok (some k') ∧ ¬ k.events <+: k'.events := by
  constructor
  · obtain ⟨w, w', hrun, hrun', ht, ht', -, -⟩ := exists_run_completed
    refine ⟨w, w', _, _, ⟨1, 1, 1, 1⟩, hrun, hrun', ht, ht', List.mem_singleton_self _, ?_⟩
    show ⟨1, 1, 1, 1⟩ ∉ [(⟨1, 1, 1, 2⟩ : Header)]
    decide
  · obtain ⟨w, -, hrun, -, ht, -⟩ := exists_run_completed
    obtain ⟨t, hst, htables⟩ := tables_of_run hrun rfl
    obtain rfl := Store.tables.inj (hst.symm.trans ht)
    have hforged := htables.tail (.append forged)
    have hfound : (attended.append forged).state.find 1 1 =
        .ok (some (.rehydrate 1 1 1 2 [.checkedIn morning, .checkedOut morning])) := by
      refine Tables.find_of_placed (h := ⟨1, 1, 1, 2⟩)
        (l := [(0, .checkedIn morning), (3, .checkedOut morning)]) rfl ?_ (by decide)
      have hsorted : (Tables.placed 1 [(0, .checkedIn morning), (3, .checkedOut morning)]).Pairwise
          fun a b => decide (a.position ≤ b.position) = true := by simp [Tables.placed]
      exact List.mergeSort_of_pairwise hsorted
    have hfound' : ((attended.append forged).state.append returned).state.find 1 1 =
        .ok (some (.rehydrate 1 1 1 3 [.checkedIn morning, .checkedIn morning, .checkedOut morning])) := by
      refine Tables.find_of_placed (h := ⟨1, 1, 1, 3⟩)
        (l := [(0, .checkedIn morning), (2, .checkedIn morning), (3, .checkedOut morning)]) rfl ?_ (by decide)
      exact Tables.sorted_between (by decide) (by decide)
    exact ⟨_, _, _, _, hforged, .single (.append returned), hfound, hfound', by decide⟩

end Rollbook
