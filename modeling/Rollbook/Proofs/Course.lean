import Mathlib.Data.List.Permutation
import Rollbook.Proofs.Indivisible
import Rollbook.Proofs.Rolls
/-
  Rollbook.Proofs.Course — a course is summed up member by member.

  The summary of a course and that of a member are two calls that come to their sessions
  in two ways. One is given them by the directory and takes them as they are, the other
  is given them by its caller and counts a repeated one once. The directory lists no
  session twice (`Store.Coherent`), so given what it lists the second call drops nothing,
  and the two ask the store the same question of each member.

  So a course that can be summed up has one entry for each of its members, in their
  order, and each entry is what the member's own summary says (`courseSummary_of_made`).
  Whatever is stored can be listed, so it can be summed up unless tables would have to
  name more sessions at once than they can (`Store.CanName`).
-/

namespace Rollbook

open Plan

/-! ## Stores -/

/-- The stores there can be: whatever was done to a directory in memory, and whatever was done to tables. -/
inductive Store.Made : Store → Prop
  | memory (us : List Directory.Update) (shelf : Shelf) : Made (.memory ⟨us.foldl Directory.update .empty, shelf⟩)
  | tables {t : Tables} : Tables.Run .empty t → Made (.tables t)

theorem coherent_of_made {st : Store} (h : st.Made) : st.Coherent := by
  cases h with
  | memory us shelf => exact Store.coherent_of_single (Directory.single_of_updates us)
  | tables hrun => exact Store.coherent_of_single (Tables.single_directory (Tables.single_of_run hrun))

/-! ### Listing records -/

namespace Tables

/-- Every row of a log can be taken out and read. -/
def Clear (t : Tables) : Prop :=
  ∀ row ∈ t.entries, fitsPosition row.position = true ∧ ∃ e, Event.ofPayload? row.payload = some e

theorem clear_newEntries {r : Record} (h : r.events.length ≤ lastPosition + 1) (id : RecordId) :
    ∀ row ∈ newEntries r id, fitsPosition row.position = true ∧ ∃ e, Event.ofPayload? row.payload = some e := by
  intro row hrow
  obtain ⟨p, hp, rfl⟩ := List.mem_map.1 hrow
  have hlength : r.uncommitted.length = r.events.length - r.persisted := List.length_drop
  obtain ⟨hfirst, hlast, -⟩ := List.mem_zipIdx hp
  refine ⟨fitsPosition_iff.2 ?_, p.1, Event.ofPayload?_payload p.1⟩
  show -2147483648 ≤ (p.2 : Int) ∧ (p.2 : Int) ≤ lastPosition
  omega

theorem clear_of_run {t : Tables} (h : Run .empty t) : t.Clear := by
  induction h with
  | refl => exact fun _ hrow => nomatch hrow
  | @tail t _ _ hturn ih =>
    cases hturn with
    | append r =>
      rcases state_append t r with hsame | ⟨hu, hadded⟩
      · rw [hsame]
        exact ih
      by_cases hlong : lastPosition + 1 < r.events.length
      · rw [append_long t hu hlong]
        exact ih
      have hnew := clear_newEntries (Nat.not_lt.1 hlong)
      rcases hadded with ⟨-, -, hopened⟩ | ⟨header, -, -, hraised⟩
      · rw [hopened]
        exact List.forall_mem_append.2 ⟨ih, hnew _⟩
      · rw [hraised]
        exact List.forall_mem_append.2 ⟨ih, hnew _⟩
    | chore c =>
      rcases perform_cases t c with hsame | hdone
      · rw [hsame]
        exact ih
      · unfold Clear
        rw [(logs_of_apply hdone).1]
        exact ih

theorem exists_load_of_clear {t : Tables} (h : t.Clear) (head : Header) : ∃ r, t.load head = .ok r := by
  unfold load
  rcases takeEntries_cases t head.id with ⟨-, htake⟩ | ⟨⟨row, hrow, -, hplace⟩, -⟩
  · rw [htake]
    dsimp only
    rcases mapM_cases (fun row : Entry => Event.ofPayload? row.payload) (t.entriesOf head.id) with
      ⟨events, -, hevents⟩ | ⟨⟨row, hrow, hnone⟩, -⟩
    · rw [hevents]
      exact ⟨_, rfl⟩
    · obtain ⟨-, e, he⟩ := h row (mem_entriesOf.1 hrow).1
      rw [hnone] at he
      cases he
  · rw [(h row hrow).1] at hplace
    cases hplace

theorem exists_mapM_of_forall {α β ε : Type} {f : α → Except ε β} {xs : List α} (h : ∀ x, ∃ y, f x = .ok y) :
    ∃ ys, xs.mapM f = .ok ys := by
  induction xs with
  | nil => exact ⟨[], rfl⟩
  | cons x xs ih =>
    obtain ⟨y, hy⟩ := h x
    obtain ⟨ys, hys⟩ := ih
    refine ⟨y :: ys, ?_⟩
    rw [List.mapM_cons, hy, hys]
    rfl

end Tables

/-- So many sessions can be named in one question. -/
def Store.CanName : Store → List SessionId → Prop
  | .memory _, _ => True
  | .tables _, sessions => sessions.length < Tables.mostValues

/-- Whatever is stored can be listed. -/
theorem answers_findAll_iff {st : Store} (h : st.Made) {member : MemberId} {sessions : List SessionId} :
    (∃ rs : List Record, st.Answers (.findAll member sessions) rs) ↔ st.CanName sessions := by
  cases h with
  | memory us shelf => exact ⟨fun _ => trivial, fun _ => ⟨_, rfl⟩⟩
  | @tables t hrun =>
    show (∃ rs, t.findAll member sessions = .ok rs) ↔ sessions.length < Tables.mostValues
    unfold Tables.findAll
    split
    · rename_i hmany
      exact ⟨(fun ⟨_, hrs⟩ => nomatch hrs), fun hfew => absurd hmany (Nat.not_lt.2 hfew)⟩
    · rename_i hfew
      exact ⟨fun _ => Nat.not_lt.1 hfew,
        fun _ => Tables.exists_mapM_of_forall (Tables.exists_load_of_clear (Tables.clear_of_run hrun))⟩

/-- Where nothing is repeated, nothing is dropped. -/
theorem eraseDups_of_nodup {α : Type} [BEq α] [LawfulBEq α] {as : List α} (h : as.Nodup) : as.eraseDups = as := by
  induction as with
  | nil => rfl
  | cons a as ih =>
    obtain ⟨hnew, hrest⟩ := List.nodup_cons.1 h
    have hkept : (as.filter fun b => !b == a) = as := by
      refine List.filter_eq_self.2 fun b hb => ?_
      have hne : b ≠ a := fun hsame => hnew (hsame ▸ hb)
      simpa using hne
    rw [List.eraseDups_cons, hkept, ih hrest]

/-! ## What the summaries answer -/

namespace Moment

variable {σ : Type} {w : Moment σ} {sessions : List SessionId}

/-- What is found of a member in the sessions now; nothing where it cannot be listed. -/
def records (w : Moment σ) (sessions : List SessionId) (member : MemberId) : List Record :=
  (w.answer (Plan.findAll member sessions)).getD []

/-- The records of the member in the sessions can be listed now. -/
def Lists (w : Moment σ) (sessions : List SessionId) (member : MemberId) : Prop :=
  ∃ rs, w.answer (Plan.findAll member sessions) = some rs

/-- The summary of a member over the sessions, from what is found now. -/
def summary (w : Moment σ) (sessions : List SessionId) (member : MemberId) : Summary :=
  .ofRecords member sessions (w.records sessions member)

theorem answer_summarize {member : MemberId} {s : Summary} :
    w.answer (Service.summarize member sessions) = some s ↔
      w.Lists sessions member ∧ s = w.summary sessions member := by
  unfold Service.summarize Lists summary records
  rw [answer_bind]
  cases w.answer (Plan.findAll member sessions) with
  | none => simp
  | some rs =>
    show some (Summary.ofRecords member sessions rs) = some s ↔ _
    simp [eq_comm]

theorem answer_summarizeAll (hb : w.backend.Calm) {members : List MemberId} {ss : List Summary} :
    w.answer (Service.summarizeAll sessions members) = some ss ↔
      (∀ m ∈ members, w.Lists sessions m) ∧ ss = members.map (w.summary sessions) := by
  induction members generalizing ss with
  | nil =>
    show some [] = some ss ↔ _
    simp [eq_comm]
  | cons m ms ih =>
    unfold Service.summarizeAll
    rw [answer_bind_quiet hb (Inquiry.quiet_summarize m sessions), Option.bind_eq_some_iff]
    constructor
    · rintro ⟨first, hfirst, hrest⟩
      rw [answer_bind_quiet hb (Inquiry.quiet_summarizeAll sessions ms), Option.bind_eq_some_iff] at hrest
      obtain ⟨rest, hrest, hwhole⟩ := hrest
      obtain ⟨hlists, rfl⟩ := answer_summarize.1 hfirst
      obtain ⟨hall, rfl⟩ := ih.1 hrest
      exact ⟨List.forall_mem_cons.2 ⟨hlists, hall⟩, (Option.some.inj hwhole).symm⟩
    · rintro ⟨hall, rfl⟩
      obtain ⟨hlists, hall⟩ := List.forall_mem_cons.1 hall
      refine ⟨_, answer_summarize.2 ⟨hlists, rfl⟩, ?_⟩
      rw [answer_bind_quiet hb (Inquiry.quiet_summarizeAll sessions ms), ih.2 ⟨hall, rfl⟩]
      rfl

theorem answer_memberSummary {member : MemberId} (hmember : 1 ≤ member) (hsessions : sessions.Nodup) {s : Summary} :
    w.answer (Service.memberSummary member sessions) = some s ↔
      w.Lists sessions member ∧ s = w.summary sessions member := by
  unfold Service.memberSummary
  rw [if_neg (Int64.not_lt.2 hmember), eraseDups_of_nodup hsessions]
  exact answer_summarize

theorem answer_courseSummary (hb : w.backend.Calm) {course : CourseId} (hcourse : 1 ≤ course) {members : List MemberId}
    (hsessions : w.answer (Plan.courseSessions course) = some sessions)
    (hmembers : w.answer (Plan.courseMembers course) = some members) :
    w.answer (Service.courseSummary course) =
      if sessions = [] ∨ members = [] then some (.empty course)
      else (w.answer (Service.summarizeAll sessions members)).map fun ss =>
        .ofMembers course ss sessions.length := by
  have hquiet : Quiet (Plan.courseSessions course) := quiet_query fun _ he => by cases he
  have hquiet' : Quiet (Plan.courseMembers course) := quiet_query fun _ he => by cases he
  unfold Service.courseSummary
  rw [if_neg (Int64.not_lt.2 hcourse), answer_bind_quiet hb hquiet, hsessions, Option.bind_some]
  cases sessions with
  | nil => rfl
  | cons s sessions =>
    show w.answer (Plan.courseMembers course >>= _) = _
    rw [answer_bind_quiet hb hquiet', hmembers, Option.bind_some]
    cases members with
    | nil => rfl
    | cons m members =>
      show w.answer (Service.summarizeAll (s :: sessions) (m :: members) >>= _) = _
      rw [answer_bind_quiet hb (Inquiry.quiet_summarizeAll _ _)]
      cases w.answer (Service.summarizeAll (s :: sessions) (m :: members)) <;> rfl

/-- The summary of a course tells of these members over these sessions, and of each what the member's own summary
    says. -/
structure Tells (w : Moment σ) (course : CourseId) (sessions : List SessionId) (members : List MemberId)
    (c : CourseSummary) : Prop where
  course : c.course = course
  everyone : c.members.map Summary.member = members
  throughout : ∀ s ∈ c.members, s.sessions.map SessionStatus.session = sessions
  own : ∀ s ∈ c.members, 1 ≤ s.member → w.answer (Service.memberSummary s.member sessions) = some s
  totalMembers : c.totalMembers = members.length
  totalSessions : c.totalSessions = sessions.length

theorem tells_of_summaries {course : CourseId} {members : List MemberId} (hsessions : sessions.Nodup)
    (hlists : ∀ m ∈ members, w.Lists sessions m) :
    w.Tells course sessions members (.ofMembers course (members.map (w.summary sessions)) sessions.length) := by
  refine ⟨rfl, ?_, fun s hs => ?_, fun s hs hmember => ?_, List.length_map _, rfl⟩
  · show (members.map (w.summary sessions)).map Summary.member = members
    rw [List.map_map]
    exact List.map_id members
  · obtain ⟨m, -, rfl⟩ := List.mem_map.1 hs
    show (sessions.map _).map SessionStatus.session = sessions
    rw [List.map_map]
    exact List.map_id sessions
  · obtain ⟨m, hm, rfl⟩ := List.mem_map.1 hs
    exact (answer_memberSummary hmember hsessions).2 ⟨hlists m hm, rfl⟩

end Moment

theorem lists_iff {st : Store} (h : st.Made) {t : Instant} {member : MemberId} {sessions : List SessionId} :
    (st.moment t).Lists sessions member ↔ st.CanName sessions :=
  (exists_congr fun _ => Store.answer_iff).trans (answers_findAll_iff h)

/-- The summary of a course has one entry for each of its members, in ascending order, and each entry is what the
    member's own summary says of the sessions of the course. There is one unless the store cannot be asked for so many
    sessions; of a course without members or sessions it says nothing but that. -/
theorem courseSummary_of_made {st : Store} (h : st.Made) (t : Instant) {course : CourseId} (hcourse : 1 ≤ course) :
    ∃ (sessions : List SessionId) (members : List MemberId),
      st.Answers (.courseSessions course) sessions ∧ st.Answers (.courseMembers course) members ∧
      members.Pairwise (· < ·) ∧
      (∀ member, member ∈ members ↔ ∃ role, st.Answers (.courseRole member course) (some role)) ∧
      (sessions ≠ [] → members ≠ [] →
        ((∃ c, (st.moment t).answer (Service.courseSummary course) = some c) ↔ st.CanName sessions) ∧
        ∀ c, (st.moment t).answer (Service.courseSummary course) = some c →
          (st.moment t).Tells course sessions members c) ∧
      (sessions = [] ∨ members = [] →
        (st.moment t).answer (Service.courseSummary course) = some ⟨course, [], 0, 0, 0⟩) := by
  have hcoherent := coherent_of_made h
  obtain ⟨sessions, hsessions, hnodup, -⟩ := hcoherent.sessions course
  obtain ⟨members, hmembers, -, hascending, hroles⟩ := hcoherent.members course
  have hanswer := Moment.answer_courseSummary (w := st.moment t) calm_store hcourse
    (Store.answer_iff.2 hsessions) (Store.answer_iff.2 hmembers)
  refine ⟨sessions, members, hsessions, hmembers, hascending, hroles, fun hsome hsome' => ?_, fun hnone => ?_⟩
  · have hsummed : ∀ c, (st.moment t).answer (Service.courseSummary course) = some c ↔
        (∀ m ∈ members, (st.moment t).Lists sessions m) ∧
          .ofMembers course (members.map ((st.moment t).summary sessions)) sessions.length = c := by
      intro c
      rw [hanswer, if_neg (not_or.2 ⟨hsome, hsome'⟩), Option.map_eq_some_iff]
      simp only [Moment.answer_summarizeAll (w := st.moment t) calm_store, and_assoc, exists_and_left, exists_eq_left]
    obtain ⟨m, hm⟩ := List.exists_mem_of_ne_nil members hsome'
    refine ⟨⟨fun ⟨c, hc⟩ => ?_, fun hfew => ?_⟩, fun c hc => ?_⟩
    · exact (lists_iff h).1 (((hsummed c).1 hc).1 m hm)
    · exact ⟨_, (hsummed _).2 ⟨fun m _ => (lists_iff h).2 hfew, rfl⟩⟩
    · obtain ⟨hlists, rfl⟩ := (hsummed c).1 hc
      exact Moment.tells_of_summaries hnodup hlists
  · rw [hanswer, if_pos hnone]
    rfl

/-- A course with two members and two sessions, one of whom was late to one of them, and a course that nobody has
    entered. -/
def seminar : Store := .memory ⟨[Directory.Update.assign 3 5 .manager, .assign 1 5 .mentee, .addSession 9 (.course 5),
    .addSession 7 (.course 5), .addSession 8 (.course 6)].foldl Directory.update .empty,
  ⟨1, [((7, 1), ⟨1, 3, [.checkedIn morning, .requested ⟨morning, .present, .late, "bus", 3, ⟨.course, 2⟩⟩,
    .corrected morning .present .late "bus" 3]⟩)]⟩⟩

theorem courseSummary_of_made_seminar : seminar.Made ∧ (1 : CourseId) ≤ 5 ∧ (1 : CourseId) ≤ 6 ∧
    (∃ c, (seminar.moment morning).answer (Service.courseSummary 5) = some c ∧
      c.members.map (fun s => (s.member, s.sessions)) =
        [(1, [⟨7, .late⟩, ⟨9, .absent⟩]), (3, [⟨7, .absent⟩, ⟨9, .absent⟩])] ∧
      c.totalMembers = 2 ∧ c.totalSessions = 2 ∧
      ∀ s ∈ c.members, (seminar.moment morning).answer (Service.memberSummary s.member [7, 9]) = some s) ∧
    (seminar.moment morning).answer (Service.courseSummary 6) = some ⟨6, [], 0, 0, 0⟩ := by
  have hmade : seminar.Made := .memory _ _
  have hfive : (1 : CourseId) ≤ 5 := by decide
  have hsix : (1 : CourseId) ≤ 6 := by decide
  refine ⟨hmade, hfive, hsix, ?_, ?_⟩
  · obtain ⟨sessions, members, hsessions, hmembers, -, -, hsummed, -⟩ := courseSummary_of_made hmade morning hfive
    have hlisted : seminar.directory.courseSessions 5 = [7, 9] := by cbv
    have hlisted' : seminar.directory.courseMembers 5 = [1, 3] := by cbv
    obtain rfl : [7, 9] = sessions := hlisted.symm.trans (Except.ok.inj hsessions)
    obtain rfl : [1, 3] = members := hlisted'.symm.trans (Except.ok.inj hmembers)
    obtain ⟨hsome, htells⟩ := hsummed (List.cons_ne_nil _ _) (List.cons_ne_nil _ _)
    obtain ⟨c, hc⟩ := hsome.2 trivial
    obtain ⟨-, heveryone, -, hown, hmany, hmany'⟩ := htells c hc
    refine ⟨c, hc, ?_, hmany, hmany', fun s hs => hown s hs ?_⟩
    · have hanswer := Moment.answer_courseSummary (w := seminar.moment morning) calm_store hfive
        (Store.answer_iff.2 hsessions) (Store.answer_iff.2 hmembers)
      have hsummed : some c = some (.ofMembers 5 ([1, 3].map ((seminar.moment morning).summary [7, 9])) 2) :=
        hc.symm.trans (hanswer.trans rfl)
      obtain rfl := Option.some.inj hsummed
      rfl
    · have hpositive : ∀ m ∈ ([1, 3] : List MemberId), 1 ≤ m :=
        List.forall_mem_cons.2 ⟨by decide, List.forall_mem_singleton.2 (by decide)⟩
      exact hpositive s.member (heveryone ▸ List.mem_map_of_mem hs)
  · obtain ⟨sessions, members, -, hmembers, -, -, -, hnone⟩ := courseSummary_of_made hmade morning hsix
    have hlisted : seminar.directory.courseMembers 6 = [] := by cbv
    exact hnone (Or.inr ((Except.ok.inj hmembers).symm.trans hlisted))

end Rollbook
