import Rollbook.Proofs.Chronology
import Rollbook.Proofs.Collation
import Rollbook.Proofs.Figures
/-
  Rollbook.Proofs.Timetable — the sessions of a course in order.

  Tables list the sessions of a course by the texts of their times, and by their numbers
  where these are equal. Within the years 0 to 9999 and within any one year this is the
  order of time (`Instant.le_of_stored`), whatever fractions there are and also in a leap
  second, which is second 60 of its minute for every instant. So sessions that were
  entered in any order are listed earliest first, and those of one time in the order in
  which they were entered (`timetable_of_run`). A summary of the course has its entries in
  the same order.

  It is not the order of time for years that are written with a sign. These come before
  all others, so a session of the year 10000 is listed before one of 2025
  (`exists_out_of_order`).
-/

namespace Rollbook

open Plan

/-! ## Earlier and later texts -/

namespace Instant

variable {t u : Instant}

theorem order_lt_of_not_le (h : ¬ t ≤ u) : order u t = .lt := by
  refine Std.OrientedCmp.gt_iff_lt.1 ?_
  cases ho : order t u with
  | gt => rfl
  | lt | eq => exact absurd (show (order t u).isLE = true by rw [ho]; rfl) h

theorem year_of_order_lt (h : order t u = .lt) : t.year < u.year ∨ t.year = u.year := by
  unfold order at h
  rcases Ordering.then_eq_lt.1 h with hlt | ⟨heq, -⟩
  · exact Or.inl (Int.compare_eq_lt.1 hlt)
  · exact Or.inr (Int.compare_eq_eq.1 heq)

/-- The text says which is earlier: both are of one year, or no year has a sign. -/
def Comparable (t u : Instant) : Prop := t.year = u.year ∨ Ordinary t.year ∧ Ordinary u.year

theorem le_of_stored (hc : Comparable t u) (h : ¬ u.stored < t.stored) : t ≤ u := by
  by_contra hle
  have hlt := order_lt_of_not_le hle
  refine h (stored_lt.2 ?_)
  rcases hc with hyear | ⟨ht, hu⟩
  · exact Or.inr ⟨hyear.symm, hlt⟩
  · rcases year_of_order_lt hlt with hyear | hyear
    · exact Or.inl ((writeYear_lt hu ht).2 hyear)
    · exact Or.inr ⟨hyear, hlt⟩

theorem writeYear_lt_of_stored (hyear : t.year ≠ u.year) (h : ¬ u.stored < t.stored) :
    writeYear t.year < writeYear u.year := by
  rcases Std.lt_trichotomy (writeYear t.year) (writeYear u.year) with hlt | heq | hlt
  · exact hlt
  · exact absurd (writeYear_inj.1 heq) hyear
  · exact absurd (stored_lt.2 (Or.inl hlt)) h

theorem not_signed_after (ht : Ordinary t.year) (h : ¬ u.stored < t.stored) : Ordinary u.year := by
  by_contra hu
  exact h (stored_lt.2 (Or.inl (writeYear_signed_lt hu ht)))

end Instant

/-! ## The order of rows -/

namespace Tables

variable {t : Tables} {course : CourseId} {listed : List SessionId}

theorem scheduledBefore_iff {a b : SessionId × Meeting} : scheduledBefore a b = true ↔
    a.2.scheduled.stored < b.2.scheduled.stored ∨ a.2.scheduled.stored = b.2.scheduled.stored ∧ a.1 ≤ b.1 := by
  unfold scheduledBefore
  simp only [Bool.or_eq_true, Bool.and_eq_true, decide_eq_true_eq, beq_iff_eq]

theorem scheduledBefore_trans (a b c : SessionId × Meeting) (hab : scheduledBefore a b = true)
    (hbc : scheduledBefore b c = true) : scheduledBefore a c = true := by
  rw [scheduledBefore_iff] at hab hbc ⊢
  rcases hab with hab | ⟨hab, hle⟩
  · rcases hbc with hbc | ⟨hbc, -⟩
    · exact Or.inl (String.lt_trans hab hbc)
    · exact Or.inl (hbc ▸ hab)
  · rw [hab]
    exact hbc.imp_right fun ⟨hbc, hle'⟩ => ⟨hbc, Int64.le_trans hle hle'⟩

theorem scheduledBefore_total (a b : SessionId × Meeting) : (scheduledBefore a b || scheduledBefore b a) = true := by
  rw [Bool.or_eq_true, scheduledBefore_iff, scheduledBefore_iff]
  rcases Std.lt_trichotomy a.2.scheduled.stored b.2.scheduled.stored with hlt | heq | hlt
  · exact Or.inl (Or.inl hlt)
  · exact (Int64.le_total a.1 b.1).imp (fun hle => Or.inr ⟨heq, hle⟩) fun hle => Or.inr ⟨heq.symm, hle⟩
  · exact Or.inr (Or.inl hlt)

/-- One session comes before another: it is earlier, or it is at the same time and was entered before. -/
def Precedes (a b : SessionId × Meeting) : Prop :=
  a.2.scheduled ≤ b.2.scheduled ∧ (a.2.scheduled = b.2.scheduled → a.1 < b.1)

theorem not_stored_lt_of_scheduledBefore {a b : SessionId × Meeting} (h : scheduledBefore a b = true) :
    ¬ b.2.scheduled.stored < a.2.scheduled.stored := by
  rcases scheduledBefore_iff.1 h with hlt | ⟨heq, -⟩
  · exact String.lt_asymm hlt
  · rw [heq]
    exact String.lt_irrefl _

theorem precedes_of_scheduledBefore {a b : SessionId × Meeting} (h : scheduledBefore a b = true) (hne : a.1 ≠ b.1)
    (hc : a.2.scheduled.Comparable b.2.scheduled) : Precedes a b := by
  refine ⟨Instant.le_of_stored hc (not_stored_lt_of_scheduledBefore h), fun hsame => ?_⟩
  rcases scheduledBefore_iff.1 h with hlt | ⟨-, hle⟩
  · rw [hsame] at hlt
    exact absurd hlt (String.lt_irrefl _)
  · exact Int64.lt_of_le_of_ne hle hne

/-! ## What is listed -/

/-- What holds of any two of the listed sessions, the first of which is listed before the second. -/
def Throughout (t : Tables) (listed : List SessionId) (R : SessionId × Meeting → SessionId × Meeting → Prop) : Prop :=
  listed.Pairwise fun i j => ∀ m n, t.sessions.get? i = some m → t.sessions.get? j = some n → R (i, m) (j, n)

/-- The sessions of the course, each once, by the year as it is written and within a year in the order of time. Where no
    year has a sign this is the order of time throughout; and years that have one come before all others. -/
structure Timetable (t : Tables) (course : CourseId) (listed : List SessionId) : Prop where
  nodup : listed.Nodup
  complete : ∀ id, id ∈ listed ↔ ∃ m, t.sessions.get? id = some m ∧ m.course = some course
  collated : t.Throughout listed fun a b =>
    Instant.writeYear a.2.scheduled.year < Instant.writeYear b.2.scheduled.year ∨
      a.2.scheduled.year = b.2.scheduled.year ∧ Precedes a b
  ordered : t.Throughout listed fun a b => a.2.scheduled.Comparable b.2.scheduled → Precedes a b
  signed : t.Throughout listed fun a b => Instant.Ordinary a.2.scheduled.year → Instant.Ordinary b.2.scheduled.year

theorem get?_eq_some (h : t.Single) {id : SessionId} {m : Meeting} :
    t.sessions.get? id = some m ↔ (id, m) ∈ t.sessions.rows := Keyed.lookup_eq_some h.sessions

theorem throughout_courseSessions (h : t.Single) {R : SessionId × Meeting → SessionId × Meeting → Prop}
    (hR : ∀ a b, scheduledBefore a b = true → a.1 ≠ b.1 → R a b) : t.Throughout (t.courseSessions course) R := by
  have hsorted := List.pairwise_mergeSort scheduledBefore_trans scheduledBefore_total
    (t.sessions.rows.filter fun row => row.2.course = some course)
  have hkeys : ((t.sessions.rows.filter fun row => row.2.course = some course).mergeSort scheduledBefore).Pairwise
      fun a b => a.1 ≠ b.1 := by
    have hunique : Keyed.Unique (t.sessions.rows.filter fun row => row.2.course = some course) :=
      Keyed.unique_filter h.sessions _
    exact List.pairwise_map.1 (((List.mergeSort_perm _ _).map Prod.fst).nodup_iff.2 hunique)
  have hstored : ∀ a ∈ (t.sessions.rows.filter fun row => row.2.course = some course).mergeSort scheduledBefore,
      t.sessions.get? a.1 = some a.2 := fun a ha =>
    (get?_eq_some h).2 (List.mem_filter.1 ((List.mergeSort_perm _ _).mem_iff.1 ha)).1
  unfold Throughout courseSessions
  rw [List.pairwise_map]
  refine (hsorted.and hkeys).imp_of_mem fun {a b} ha hb ⟨hab, hne⟩ m n hm hn => ?_
  obtain rfl : a.2 = m := Option.some.inj ((hstored a ha).symm.trans hm)
  obtain rfl : b.2 = n := Option.some.inj ((hstored b hb).symm.trans hn)
  exact hR a b hab hne

theorem timetable_courseSessions (h : t.Single) (course : CourseId) : t.Timetable course (t.courseSessions course) := by
  have hnodup : (t.courseSessions course).Nodup :=
    (t.courseSessions_perm course).nodup_iff.2 (Directory.nodup_sessionsIn (single_directory h))
  refine ⟨hnodup, fun id => ?_, ?_, ?_, ?_⟩
  · unfold courseSessions
    rw [List.mem_map]
    constructor
    · rintro ⟨⟨i, m⟩, hrow, rfl⟩
      obtain ⟨hrow, hcourse⟩ := List.mem_filter.1 ((List.mergeSort_perm _ _).mem_iff.1 hrow)
      exact ⟨m, (get?_eq_some h).2 hrow, of_decide_eq_true hcourse⟩
    · rintro ⟨m, hm, hcourse⟩
      refine ⟨(id, m), (List.mergeSort_perm _ _).mem_iff.2 (List.mem_filter.2 ⟨(get?_eq_some h).1 hm, ?_⟩), rfl⟩
      exact decide_eq_true hcourse
  · refine throughout_courseSessions h fun a b hab hne => ?_
    by_cases hyear : a.2.scheduled.year = b.2.scheduled.year
    · exact Or.inr ⟨hyear, precedes_of_scheduledBefore hab hne (Or.inl hyear)⟩
    · exact Or.inl (Instant.writeYear_lt_of_stored hyear (not_stored_lt_of_scheduledBefore hab))
  · exact throughout_courseSessions h fun a b hab hne hc => precedes_of_scheduledBefore hab hne hc
  · exact throughout_courseSessions h fun a b hab _ hordinary =>
      Instant.not_signed_after hordinary (not_stored_lt_of_scheduledBefore hab)

/-- A session that is created is kept as it was given, under a number above all others, and the others stay. -/
theorem get?_createSession (h : t.Single) {t' : Tables} {meeting : Meeting} {id : SessionId}
    (hc : t.createSession meeting = .ok (id, t')) : t'.sessions.get? id = some meeting ∧
      ∀ i m, t.sessions.get? i = some m → t'.sessions.get? i = some m ∧ i < id := by
  have h' := single_createSession h hc
  obtain ⟨-, sessions, hinsert, rfl⟩ := eq_of_createSession hc
  obtain ⟨rfl, hnew⟩ := number_of_insert h hinsert
  refine ⟨(get?_eq_some h').2 (List.mem_append_right _ List.mem_cons_self), fun i m hm => ?_⟩
  have hrow := (get?_eq_some h).1 hm
  exact ⟨(get?_eq_some h').2 (List.mem_append_left _ hrow), hnew (i, m) hrow⟩

end Tables

/-- The summary of a course has its entries in the order in which the sessions are listed. -/
theorem entries_of_courseSummary {st : Store} {now : Instant} {course : CourseId} {listed : List SessionId}
    {c : CourseSummary} (hlisted : st.Answers (.courseSessions course) listed)
    (h : (st.moment now).answer (Service.courseSummary course) = some c) :
    ∀ s ∈ c.members, s.sessions.map SessionStatus.session = listed := by
  by_cases hcourse : 1 ≤ course
  · rw [Moment.answer_courseSummary calm_store hcourse (Store.answer_iff.2 hlisted)
      (Store.answer_iff.2 (st.answers_courseMembers course))] at h
    split at h
    · cases h
      exact fun s hs => nomatch hs
    · obtain ⟨ss, hss, rfl⟩ := Option.map_eq_some_iff.1 h
      obtain ⟨-, rfl⟩ := (Moment.answer_summarizeAll calm_store).1 hss
      intro s hs
      obtain ⟨m, -, rfl⟩ := List.mem_map.1 hs
      exact Summary.sessions_ofRecords m listed _
  · unfold Service.courseSummary at h
    rw [if_pos (Int64.not_le.1 hcourse)] at h
    cases h

/-- Whatever was done to tables, and in whatever order sessions were created, the sessions of a course are listed in the
    order of time, those of one time in the order of their numbers, as far as no year has a sign. The entries of its
    summary are in the same order. -/
theorem timetable_of_run {t : Tables} (h : Tables.Run .empty t) (course : CourseId) :
    ∃ listed : List SessionId, (Store.tables t).Answers (.courseSessions course) listed ∧ t.Timetable course listed ∧
      (∀ now c, ((Store.tables t).moment now).answer (Service.courseSummary course) = some c →
        ∀ s ∈ c.members, s.sessions.map SessionStatus.session = listed) ∧
      ∀ meeting id t', t.createSession meeting = .ok (id, t') → t'.sessions.get? id = some meeting ∧
        ∀ i m, t.sessions.get? i = some m → t'.sessions.get? i = some m ∧ i < id := by
  have hsingle := Tables.single_of_run h
  exact ⟨_, rfl, Tables.timetable_courseSessions hsingle course, fun now c => entries_of_courseSummary rfl,
    fun meeting id t' => Tables.get?_createSession hsingle⟩

/-! ## Two semesters -/

theorem Tables.run_chores {t t₀ : Tables} (h : Run t₀ t) (cs : List Chore) : Run t₀ (cs.foldl perform t) := by
  induction cs generalizing t with
  | nil => exact h
  | cons c cs ih => exact ih (h.tail (.chore c))

/-- A session of the first course. -/
def lecture (time : Instant) : Meeting := ⟨some 1, "Logic", time⟩

/-- A course and its sessions, in the order in which they were created. -/
def semester (times : List Instant) : Tables :=
  (.createCourse "Logic" :: times.map fun time => .createSession (lecture time)).foldl Tables.perform .empty

theorem run_semester (times : List Instant) : Tables.Run .empty (semester times) := Tables.run_chores .refl _

/-- The last second of 2016, which was a leap second. -/
def leapSecond : Instant := ⟨⟨2016, 12, 31, 23, 59, 60, 0⟩, by decide⟩

/-- A quarter into it, with a fraction that the text of the whole second does not have. -/
def withinLeapSecond : Instant := ⟨⟨2016, 12, 31, 23, 59, 60, 250000000⟩, by decide⟩

/-- Sessions that were entered in the opposite order are listed by time, and two of one time as they were entered. -/
theorem timetable_of_run_leap : ∃ t listed, Tables.Run .empty t ∧ t.Timetable 1 listed ∧ listed = [2, 3, 1] ∧
    t.sessions.get? 1 = some (lecture withinLeapSecond) ∧
    t.sessions.get? 2 = some (lecture leapSecond) ∧ t.sessions.get? 3 = some (lecture leapSecond) := by
  have hrun := run_semester [withinLeapSecond, leapSecond, leapSecond]
  obtain ⟨listed, hlisted, htimetable, -, -⟩ := timetable_of_run hrun 1
  have hcomputed : (semester [withinLeapSecond, leapSecond, leapSecond]).courseSessions 1 = [2, 3, 1] := by
    have h12 : Tables.scheduledBefore (1, lecture withinLeapSecond) (2, lecture leapSecond) = false := rfl
    have h13 : Tables.scheduledBefore (1, lecture withinLeapSecond) (3, lecture leapSecond) = false := rfl
    have h23 : Tables.scheduledBefore (2, lecture leapSecond) (3, lecture leapSecond) = true := rfl
    show (List.mergeSort [(1, lecture withinLeapSecond), (2, lecture leapSecond), (3, lecture leapSecond)]
      Tables.scheduledBefore).map _ = _
    simp [List.mergeSort, List.MergeSort.Internal.splitInTwo, h12, h13, h23]
  exact ⟨_, listed, hrun, htimetable, (Except.ok.inj hlisted).symm.trans hcomputed, rfl, rfl, rfl⟩

/-- New year's day of the first year with a fifth digit. -/
def fifthDigit : Instant := ⟨⟨10000, 1, 1, 0, 0, 0, 0⟩, by decide⟩

/-- A session of the year 10000 is listed before one of 2025. -/
theorem exists_out_of_order : ∃ t : Tables, Tables.Run .empty t ∧
    (Store.tables t).Answers (.courseSessions 1) [2, 1] ∧
    t.sessions.get? 1 = some (lecture morning) ∧ t.sessions.get? 2 = some (lecture fifthDigit) ∧
    ¬ fifthDigit ≤ morning := by
  have htext : fifthDigit.stored < morning.stored := by
    refine Instant.stored_lt.2 (Or.inl (Instant.writeYear_signed_lt (fun h => ?_) ⟨by decide, by decide⟩))
    exact absurd h.2 (by decide)
  have h12 : Tables.scheduledBefore (1, lecture morning) (2, lecture fifthDigit) = false := by
    refine Bool.eq_false_iff.2 fun h => ?_
    exact Tables.not_stored_lt_of_scheduledBefore h htext
  have hcomputed : (semester [morning, fifthDigit]).courseSessions 1 = [2, 1] := by
    show (List.mergeSort [(1, lecture morning), (2, lecture fifthDigit)] Tables.scheduledBefore).map _ = _
    simp [List.mergeSort, List.MergeSort.Internal.splitInTwo, h12]
  have hlisted : (Store.tables (semester [morning, fifthDigit])).Answers (.courseSessions 1)
      ((semester [morning, fifthDigit]).courseSessions 1) := rfl
  rw [hcomputed] at hlisted
  exact ⟨_, run_semester _, hlisted, rfl, rfl, by decide⟩

end Rollbook
