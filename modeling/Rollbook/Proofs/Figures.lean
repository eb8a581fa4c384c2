import Mathlib.Data.Finset.Card
import Rollbook.Proofs.Course
/-
  Rollbook.Proofs.Figures — a member's figures are what is stored.

  A member's summary does not look up one record after the other. It asks for the records
  in all of its sessions at once, which come in whatever order the store has them, and
  then takes for each session the first one that is of that session. A session that has
  no record, or is none at all, is listed with the others.

  The first record of a session among those that are listed is the one that a look-up of
  the session finds (`answers_find_of_listed`), in memory and in tables and whatever they
  contain. So a status in the summary does not depend on the other sessions that were
  named with it, and is what the member's status there is answered to be. The figures
  count these statuses, and what they add up to is the number of different sessions
  (`memberSummary_of_reach`).
-/

namespace Rollbook

open Plan

/-! ## Lists that name things twice -/

/-- What is left when repetitions are dropped stands in the order of first occurrence. -/
theorem pairwise_idxOf_eraseDups {α : Type} [BEq α] [LawfulBEq α] (as : List α) :
    as.eraseDups.Pairwise fun a b => as.idxOf a < as.idxOf b := by
  induction as using List.reverseRecOn with
  | nil => exact .nil
  | append_singleton as a ih =>
    have hearlier : as.eraseDups.Pairwise fun b c => (as ++ [a]).idxOf b < (as ++ [a]).idxOf c := by
      refine ih.imp_of_mem fun {b c} hb hc hlt => ?_
      rwa [List.idxOf_append_of_mem (List.mem_eraseDups.1 hb), List.idxOf_append_of_mem (List.mem_eraseDups.1 hc)]
    rw [List.eraseDups_append]
    by_cases ha : a ∈ as
    · have hnone : [a].removeAll as = [] := by simp [List.removeAll, ha]
      rw [hnone, List.eraseDups_nil, List.append_nil]
      exact hearlier
    · have hone : [a].removeAll as = [a] := by simp [List.removeAll, ha]
      rw [hone, eraseDups_of_nodup (List.nodup_singleton a)]
      refine List.pairwise_append.2 ⟨hearlier, List.pairwise_singleton _ _, fun b hb c hc => ?_⟩
      have hb := List.mem_eraseDups.1 hb
      rw [List.mem_singleton.1 hc, List.idxOf_append_of_mem hb, List.idxOf_append_of_notMem ha]
      exact Nat.lt_add_right _ (List.idxOf_lt_length_of_mem hb)

theorem nodup_eraseDups {α : Type} [BEq α] [LawfulBEq α] (as : List α) : as.eraseDups.Nodup := by
  refine (pairwise_idxOf_eraseDups as).imp fun {a b} hlt hsame => ?_
  rw [hsame] at hlt
  exact Nat.lt_irrefl _ hlt

theorem card_toFinset_eq {α : Type} [DecidableEq α] (as : List α) : as.toFinset.card = as.eraseDups.length := by
  rw [← List.toFinset_card_of_nodup (nodup_eraseDups as)]
  refine congrArg Finset.card (Finset.ext fun a => ?_)
  rw [List.mem_toFinset, List.mem_toFinset, List.mem_eraseDups]

/-! ## The record of a session in a list -/

namespace Shelf

theorem find?_findAll (s : Shelf) (member : MemberId) (session : SessionId) (sessions : List SessionId) :
    ((s.findAll member sessions).find? fun r => r.session = session) =
      if session ∈ sessions then s.find session member else none := by
  have hkey : ∀ {i : SessionId} {r : Record}, s.find i member = some r → r.session = i := by
    intro i r hr
    obtain ⟨k, -, rfl⟩ := Option.map_eq_some_iff.1 hr
    rfl
  unfold findAll
  induction sessions with
  | nil => rfl
  | cons i sessions ih =>
    rw [List.filterMap_cons]
    by_cases hi : i = session
    · subst hi
      rw [if_pos List.mem_cons_self]
      cases hr : s.find i member with
      | some r => exact List.find?_cons_of_pos (decide_eq_true (hkey hr))
      | none =>
        refine ih.trans ?_
        rw [hr]
        exact ite_self none
    · have hmem : session ∈ i :: sessions ↔ session ∈ sessions :=
        ⟨fun h => (List.mem_cons.1 h).resolve_left fun he => hi he.symm, List.mem_cons_of_mem i⟩
      rw [if_congr hmem rfl rfl, ← ih]
      cases hr : s.find i member with
      | some r =>
        have hother : ¬ decide (r.session = session) = true := fun hs =>
          hi ((hkey hr).symm.trans (of_decide_eq_true hs))
        exact List.find?_cons_of_neg hother
      | none => rfl

end Shelf

namespace Tables

variable {t : Tables}

/-- The first of the results that is looked for comes from the first of the items that is. -/
theorem find?_of_mapM {α β ε : Type} {f : α → Except ε β} {p : α → Bool} {q : β → Bool} {xs : List α} {ys : List β}
    (h : xs.mapM f = .ok ys) (hpq : ∀ x y, f x = .ok y → q y = p x) :
    ((xs.find? p).elim (.ok none) fun x => some <$> f x) = .ok (ys.find? q) := by
  induction xs generalizing ys with
  | nil =>
    cases h
    rfl
  | cons x xs ih =>
    rw [List.mapM_cons] at h
    obtain ⟨y, hy, h⟩ := ok_of_bind h
    obtain ⟨rest, hrest, h⟩ := ok_of_bind h
    cases h
    rw [List.find?_cons, List.find?_cons, hpq x y hy]
    cases p x with
    | true =>
      show some <$> f x = .ok (some y)
      rw [hy]
      rfl
    | false => exact ih hrest

theorem find_eq_elim (t : Tables) (session : SessionId) (member : MemberId) :
    t.find session member = (t.header? session member).elim (.ok none) fun h => some <$> t.load h := by
  unfold find
  cases t.header? session member <;> rfl

theorem find_of_listed {member : MemberId} {sessions : List SessionId} {rs : List Record}
    (h : t.findAll member sessions = .ok rs) {session : SessionId} (hs : session ∈ sessions) :
    t.find session member = .ok (rs.find? fun r => r.session = session) := by
  unfold findAll at h
  split at h
  · cases h
  · have hloaded : ∀ head r, t.load head = .ok r →
        decide (r.session = session) = decide (head.session = session) := fun head r hr => by
      rw [rehydrate_of_load hr]
      rfl
    have hheader : (t.headers.filter fun h => h.member = member ∧ h.session ∈ sessions).find?
        (fun h => h.session = session) = t.header? session member := by
      unfold header?
      rw [List.find?_filter]
      refine congrFun (congrArg List.find? (funext fun head => decide_eq_decide.2 ?_)) _
      rw [decide_eq_true_iff, decide_eq_true_iff]
      constructor
      · rintro ⟨⟨hmember, -⟩, hsession⟩
        exact ⟨hsession, hmember⟩
      · rintro ⟨rfl, hmember⟩
        exact ⟨⟨hmember, hs⟩, rfl⟩
    rw [find_eq_elim, ← hheader]
    exact find?_of_mapM h hloaded

end Tables

/-- What is found of a session is the first record of it in any list that names the session. -/
theorem answers_find_of_listed {st : Store} {member : MemberId} {sessions : List SessionId} {rs : List Record}
    (h : st.Answers (.findAll member sessions) rs) {session : SessionId} (hs : session ∈ sessions) :
    st.Answers (.find session member) (rs.find? fun r => r.session = session) := by
  cases st with
  | memory m =>
    obtain rfl : m.shelf.findAll member sessions = rs := Except.ok.inj h
    refine congrArg Except.ok ?_
    rw [Shelf.find?_findAll, if_pos hs]
  | tables t => exact Tables.find_of_listed h hs

namespace Summary

theorem statusIn_eq (rs : List Record) (session : SessionId) :
    statusIn rs session = ((rs.find? fun r => r.session = session).map Record.status).getD .absent := by
  unfold statusIn
  cases rs.find? fun r => r.session = session <;> rfl

/-! ## Figures -/

theorem sessions_ofRecords (member : MemberId) (sessions : List SessionId) (rs : List Record) :
    (ofRecords member sessions rs).sessions.map SessionStatus.session = sessions := by
  show (sessions.map _).map SessionStatus.session = sessions
  rw [List.map_map]
  exact List.map_id sessions

/-- Every session has one of the four statuses. -/
theorem count_total (es : List SessionStatus) :
    count es .present + count es .absent + count es .late + count es .leftEarly = es.length := by
  unfold count
  induction es with
  | nil => rfl
  | cons e es ih =>
    simp only [List.countP_cons, List.length_cons]
    cases e.status <;> simp <;> omega

theorem count_attended (es : List SessionStatus) :
    count es .present + count es .late + count es .leftEarly = es.countP fun e => e.status.attended := by
  unfold count
  induction es with
  | nil => rfl
  | cons e es ih =>
    simp only [List.countP_cons]
    rw [← ih]
    cases e.status <;> simp [Status.attended] <;> omega

theorem rate_ofRecords (member : MemberId) (sessions : List SessionId) (rs : List Record) :
    (ofRecords member sessions rs).rate =
      rateOf ((ofRecords member sessions rs).sessions.countP fun e => e.status.attended)
        (ofRecords member sessions rs).sessions.length :=
  congrArg (rateOf · _) (count_attended _)

end Summary

/-- The summary lists each session once, in the order in which they are first named, with the status of the record
    that is found there, and counts what it lists. -/
structure Moment.Accounts {σ : Type} (w : Moment σ) (member : MemberId) (sessions : List SessionId) (s : Summary) :
    Prop where
  first : (s.sessions.map SessionStatus.session).Pairwise fun a b => sessions.idxOf a < sessions.idxOf b
  named : ∀ session, session ∈ s.sessions.map SessionStatus.session ↔ session ∈ sessions
  stored : ∀ e ∈ s.sessions, ∃ found, w.answer (Plan.find e.session member) = some found ∧
    e.status = (found.map Record.status).getD .absent
  /-- The status is the one that is answered for the session alone. -/
  alone : ∀ e ∈ s.sessions, 1 ≤ e.session → w.answer (Service.status e.session member) = some e.status
  present : s.present = s.sessions.countP fun e => e.status = .present
  absent : s.absent = s.sessions.countP fun e => e.status = .absent
  late : s.late = s.sessions.countP fun e => e.status = .late
  leftEarly : s.leftEarly = s.sessions.countP fun e => e.status = .leftEarly
  total : s.present + s.absent + s.late + s.leftEarly = sessions.toFinset.card
  rate : sessions ≠ [] →
    s.rate = (s.sessions.countP fun e => e.status.attended).toFloat / sessions.toFinset.card.toFloat
  rateless : sessions = [] → s.rate = 0
  member : s.member = member

namespace Moment

theorem answer_status {σ : Type} {w : Moment σ} (hb : w.backend.Calm) {session : SessionId} {member : MemberId}
    (hsession : 1 ≤ session) (hmember : 1 ≤ member) : w.answer (Service.status session member) =
      (w.answer (Plan.find session member)).map fun found => (found.map Record.status).getD .absent := by
  have hproblems : keyProblems session member = [] := by
    unfold keyProblems requirePositive
    rw [if_pos hsession, if_pos hmember]
    rfl
  unfold Service.status Service.inspect
  rw [hproblems]
  show w.answer (Plan.find session member >>= _) = _
  rw [answer_bind_quiet hb (Service.quiet_find session member)]
  cases w.answer (Plan.find session member) with
  | none => rfl
  | some found => cases found <;> rfl

/-- Whatever the store contains, a summary of it that is answered is right. -/
theorem accounts_of_answer {st : Store} {t : Instant} {member : MemberId} (hmember : 1 ≤ member)
    {sessions : List SessionId} {s : Summary}
    (h : (st.moment t).answer (Service.memberSummary member sessions) = some s) :
    (st.moment t).Accounts member sessions s := by
  unfold Service.memberSummary at h
  rw [if_neg (Int64.not_lt.2 hmember)] at h
  obtain ⟨⟨rs, hrs⟩, rfl⟩ := answer_summarize.1 h
  have hlisted : (st.moment t).summary sessions.eraseDups member = .ofRecords member sessions.eraseDups rs := by
    unfold summary records
    rw [hrs]
    rfl
  rw [hlisted]
  have hnames := Summary.sessions_ofRecords member sessions.eraseDups rs
  have hcard : (Summary.ofRecords member sessions.eraseDups rs).sessions.length = sessions.toFinset.card := by
    rw [card_toFinset_eq]
    exact List.length_map _
  have hstored : ∀ e ∈ (Summary.ofRecords member sessions.eraseDups rs).sessions, ∃ found,
      (st.moment t).answer (Plan.find e.session member) = some found ∧
        e.status = (found.map Record.status).getD .absent := by
    intro e he
    obtain ⟨i, hi, rfl⟩ := List.mem_map.1 he
    exact ⟨_, Store.answer_iff.2 (answers_find_of_listed (Store.answer_iff.1 hrs) hi), Summary.statusIn_eq rs i⟩
  refine ⟨?_, fun session => ?_, hstored, fun e he hsession => ?_, rfl, rfl, rfl, rfl, ?_, fun hsome => ?_, ?_, rfl⟩
  · rw [hnames]
    exact pairwise_idxOf_eraseDups sessions
  · rw [hnames]
    exact List.mem_eraseDups
  · obtain ⟨found, hanswer, hstatus⟩ := hstored e he
    rw [answer_status (w := st.moment t) calm_store hsession hmember, hanswer, hstatus]
    rfl
  · exact (Summary.count_total _).trans hcard
  · have hpositive : sessions.toFinset.card ≠ 0 := by
      rw [Finset.card_ne_zero, List.toFinset_nonempty_iff]
      exact hsome
    rw [Summary.rate_ofRecords, hcard, Summary.rateOf, if_neg hpositive]
  · rintro rfl
    rfl

end Moment

/-- In a reachable world the records of a member can be listed, unless tables would have to name too many sessions. -/
theorem lists_of_reach {R : Rules} {w : World} (h : w.Reach R) (t : Instant) (member : MemberId)
    (sessions : List SessionId) : (w.store.moment t).Lists sessions member ↔ w.store.CanName sessions := by
  refine (exists_congr fun _ => Store.answer_iff).trans ?_
  obtain ⟨s, hi⟩ := inv_of_reach (kept_true R) h
  have hshown := hi.shown
  cases hst : w.store with
  | memory m => exact ⟨fun _ => trivial, fun _ => ⟨_, rfl⟩⟩
  | tables tables =>
    rw [hst] at hshown
    show (∃ rs, tables.findAll member sessions = .ok rs) ↔ sessions.length < Tables.mostValues
    constructor
    · rintro ⟨rs, hrs⟩
      by_contra hmany
      unfold Tables.findAll at hrs
      rw [if_pos (Nat.lt_succ_of_le (Nat.not_lt.1 hmany))] at hrs
      cases hrs
    · intro hfew
      obtain ⟨rs, hrs, -⟩ := Tables.findAll_eq hshown member hfew
      exact ⟨rs, hrs⟩

/-- The summary of a member gives each of the sessions that are named the status that is stored for it, or ABSENT,
    and counts these. There is one whatever sessions are named, unless they are too many for tables. -/
theorem memberSummary_of_reach {R : Rules} {w : World} (h : w.Reach R) (t : Instant) {member : MemberId}
    (hmember : 1 ≤ member) (sessions : List SessionId) :
    ((∃ s, (w.store.moment t).answer (Service.memberSummary member sessions) = some s) ↔
        w.store.CanName sessions.eraseDups) ∧
      ∀ s, (w.store.moment t).answer (Service.memberSummary member sessions) = some s →
        (w.store.moment t).Accounts member sessions s := by
  refine ⟨?_, fun s hs => Moment.accounts_of_answer hmember hs⟩
  rw [← lists_of_reach h t member]
  unfold Service.memberSummary
  rw [if_neg (Int64.not_lt.2 hmember)]
  constructor
  · rintro ⟨s, hs⟩
    exact (Moment.answer_summarize.1 hs).1
  · intro hlists
    exact ⟨_, Moment.answer_summarize.2 ⟨hlists, rfl⟩⟩

/-- A member who was late to a session. Sessions are named twice, and among them some that cannot exist. -/
theorem memberSummary_of_reach_repeated : ∃ w : World, w.Reach ⟨false, false⟩ ∧ (1 : MemberId) ≤ 1 ∧ ∃ s,
    (w.store.moment morning).answer (Service.memberSummary 1 [9, 7, 0, 9, -3, 7]) = some s ∧
    s.sessions = [⟨9, .absent⟩, ⟨7, .late⟩, ⟨0, .absent⟩, ⟨-3, .absent⟩] ∧
    (s.present, s.absent, s.late, s.leftEarly) = (0, 3, 1, 0) ∧
    (w.store.moment morning).Accounts 1 [9, 7, 0, 9, -3, 7] s := by
  obtain ⟨w, hreach, hst⟩ := reach_after (reach_school ⟨false, false⟩)
    [.checkIn 7 1, .request 2 7 1 .late "bus", .approve 3 7 1 none]
  have hmember : (1 : MemberId) ≤ 1 := by decide
  have hdistinct : ([9, 7, 0, 9, -3, 7] : List SessionId).eraseDups = [9, 7, 0, -3] := by cbv
  have hsummary : (w.store.moment morning).answer (Service.memberSummary 1 [9, 7, 0, 9, -3, 7]) =
      some (.ofRecords 1 [9, 7, 0, -3] [.rehydrate 1 7 1 3 [.checkedIn morning,
        .requested ⟨morning, .present, .late, "bus", 2, ⟨.course, 1⟩⟩,
        .corrected morning .present .late "bus" 3]]) := by
    show (w.store.moment morning).answer (Service.summarize 1 (List.eraseDups _)) = _
    rw [hst, hdistinct]
    rfl
  obtain ⟨-, haccounts⟩ := memberSummary_of_reach hreach morning hmember [9, 7, 0, 9, -3, 7]
  exact ⟨w, hreach, hmember, _, hsummary, rfl, rfl, haccounts _ hsummary⟩

end Rollbook
