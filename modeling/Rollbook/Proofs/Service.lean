import Rollbook.Proofs.Correction
import Rollbook.Service
/-
  Rollbook.Proofs.Service — the five calls that change a record, walked through.

  Whatever a call was answered, when it comes to append it has loaded the record of its
  session and member before and applied its own transition to what it loaded
  (`asks_append`); only a check-in goes on when there was nothing to load. No call
  appends twice, since nothing of an append is among what it has taken in by then.
-/

namespace Rollbook

open Plan

/-- A call that changes a record. -/
inductive Command where
  | checkIn (session : SessionId) (member : MemberId)
  | checkOut (session : SessionId) (member : MemberId)
  | request (actor : MemberId) (session : SessionId) (member : MemberId) (wanted : Status)
      (reason : String)
  | approve (actor : MemberId) (session : SessionId) (member : MemberId) (reason : Option String)
  | reject (actor : MemberId) (session : SessionId) (member : MemberId) (reason : String)
  deriving DecidableEq

namespace Command

def session : Command → SessionId
  | .checkIn s _ | .checkOut s _ | .request _ s .. | .approve _ s .. | .reject _ s .. => s

def member : Command → MemberId
  | .checkIn _ m | .checkOut _ m | .request _ _ m .. | .approve _ _ m _ | .reject _ _ m _ => m

def plan : Command → Plan Record
  | .checkIn s m => Service.checkIn s m
  | .checkOut s m => Service.checkOut s m
  | .request a s m wanted reason => Service.requestCorrection a s m wanted reason
  | .approve a s m reason => Service.approveCorrection a s m reason
  | .reject a s m reason => Service.rejectCorrection a s m reason

/-- The transition of the call makes `r'` of `r`, with these inputs. -/
def Transition (r : Record) (is : List Input) (r' : Record) : Command → Prop
  | .checkIn .. => ∃ t, is = [.time t] ∧ r.checkIn t = .ok r'
  | .checkOut .. => ∃ t, is = [.time t] ∧ r.checkOut t = .ok r'
  | .request a _ _ wanted reason => Yields (Correction.request r a wanted reason) is r'
  | .approve a _ _ reason => Yields (Correction.approve r a reason) is r'
  | .reject a _ _ reason => Yields (Correction.reject r a reason) is r'

theorem change_of_transition {c : Command} {r r' : Record} {is : List Input}
    (h : c.Transition r is r') : Change r r' := by
  cases c with
  | checkIn s m =>
    obtain ⟨t, -, h⟩ := h
    exact .checkIn t h
  | checkOut s m =>
    obtain ⟨t, -, h⟩ := h
    exact .checkOut t h
  | request a s m wanted reason => exact .request a wanted reason is h
  | approve a s m reason => exact .approve a reason is h
  | reject a s m reason => exact .reject a reason is h

end Command

/-! ## Before and at the load -/

namespace Service

theorem yields_require {problems : List Problem} {is : List Input} {u : Unit}
    (h : Yields (require problems) is u) : is = [] := by
  unfold require at h
  split at h
  · exact (yields_pure.1 h).1
  · exact absurd h not_yields_fail

theorem not_asks_require {problems : List Problem} {is : List Input} {q : Query} :
    ¬ Asks (require problems) is q := by
  unfold require
  split <;> simp

theorem asks_isSessionMember {member : MemberId} {session : SessionId} {is : List Input} {q : Query}
    (h : Asks (Authority.isSessionMember member session) is q) : q.IsLookup := by
  rcases asks_bind.1 h with h | ⟨scope, is₁, is₂, rfl, _, hk⟩
  · obtain ⟨-, rfl⟩ := asks_query.1 h
    trivial
  · split at hk
    · rcases asks_bind.1 hk with h | ⟨role, is₃, is₄, rfl, _, hn⟩
      · obtain ⟨-, rfl⟩ := asks_query.1 h
        trivial
      · exact absurd hn not_asks_pure
    · exact absurd hk not_asks_pure
    · exact absurd hk not_asks_pure

theorem asks_requireParticipant {session : SessionId} {member : MemberId} {is : List Input} {q : Query}
    (h : Asks (requireParticipant session member) is q) : q.IsLookup := by
  rcases asks_bind.1 h with h | ⟨b, is₁, is₂, rfl, _, hk⟩
  · exact asks_isSessionMember h
  · split at hk <;> simp [asks_bind] at hk

theorem yields_loadExisting {session : SessionId} {member : MemberId} {is : List Input} {r : Record}
    (h : Yields (loadExisting session member) is r) : is = [.answer (.find session member) (some r)] := by
  obtain ⟨found, is₁, is₂, rfl, hf, hk⟩ := yields_bind.1 h
  obtain rfl := yields_query.1 hf
  split at hk
  · obtain ⟨rfl, rfl⟩ := yields_pure.1 hk
    rfl
  · exact absurd hk not_yields_fail

theorem asks_loadExisting {session : SessionId} {member : MemberId} {is : List Input} {q : Query}
    (h : Asks (loadExisting session member) is q) : q = .find session member := by
  rcases asks_bind.1 h with h | ⟨found, is₁, is₂, rfl, _, hk⟩
  · exact (asks_query.1 h).2
  · split at hk
    · exact absurd hk not_asks_pure
    · exact absurd hk not_asks_fail

/-- A call that loads an existing record, applies a plan of look-ups to it and appends what comes
    out. -/
theorem asks_append_of_load {problems : List Problem} {session : SessionId} {member : MemberId}
    {change : Record → Plan Record} (hc : ∀ {r is q}, Asks (change r) is q → q.IsLookup)
    {is : List Input} {r' : Record}
    (h : Asks (do
      require problems
      let record ← loadExisting session member
      let record ← change record
      Plan.append record) is (.append r')) :
    ∃ r is₂, is = .answer (.find session member) (some r) :: is₂ ∧ Yields (change r) is₂ r' := by
  rcases asks_bind.1 h with h | ⟨u, is₁, is₂, rfl, hq, hload⟩
  · exact absurd h not_asks_require
  obtain rfl := yields_require hq
  rcases asks_bind.1 hload with h | ⟨r, is₃, is₄, rfl, hl, hchange⟩
  · cases asks_loadExisting h
  obtain rfl := yields_loadExisting hl
  rcases asks_bind.1 hchange with h | ⟨r'', is₅, is₆, rfl, hy, ha⟩
  · exact (hc h).elim
  obtain ⟨rfl, he⟩ := asks_query.1 ha
  cases he
  exact ⟨r, is₅, by simp, hy⟩

/-- The end of a check-in or check-out: the clock is read, the record moved and appended. -/
theorem asks_append_of_stamp {move : Instant → Except Failure Record} {n : Notice} {is : List Input}
    {r' : Record}
    (h : Asks (do
      let time ← Plan.now
      let record ← Plan.lift (move time)
      let saved ← Plan.append record
      Plan.log n
      return saved) is (.append r')) :
    ∃ t, is = [.time t] ∧ move t = .ok r' := by
  rcases asks_bind.1 h with h | ⟨t, is₁, is₂, rfl, ht, hmove⟩
  · exact absurd h not_asks_now
  obtain rfl := yields_now.1 ht
  rcases asks_bind.1 hmove with h | ⟨r, is₃, is₄, rfl, hl, happend⟩
  · exact absurd h not_asks_lift
  obtain ⟨rfl, hr⟩ := yields_lift.1 hl
  rcases asks_bind.1 happend with h | ⟨saved, is₅, is₆, rfl, _, hn⟩
  · obtain ⟨rfl, he⟩ := asks_query.1 h
    cases he
    exact ⟨t, rfl, hr⟩
  · simp [asks_bind] at hn

end Service

/-! ## At the append -/

namespace Command

open Service

/-- A call that comes to append has loaded its record before and applied its transition to it. -/
theorem asks_append {c : Command} {is : List Input} {r' : Record} (h : Asks c.plan is (.append r')) :
    ∃ found is₁ is₂, is = is₁ ++ .answer (.find c.session c.member) found :: is₂ ∧
      (found = none → ∃ s m, c = .checkIn s m) ∧
      c.Transition (found.getD (.new c.session c.member)) is₂ r' := by
  cases c with
  | checkIn s m =>
    rcases asks_bind.1 h with h | ⟨u, is₁, is₂, rfl, _, hparticipant⟩
    · exact absurd h not_asks_require
    rcases asks_bind.1 hparticipant with h | ⟨v, is₃, is₄, rfl, _, hload⟩
    · exact (asks_requireParticipant h).elim
    rcases asks_bind.1 hload with h | ⟨found, is₅, is₆, rfl, hf, hmove⟩
    · cases (asks_query.1 h).2
    obtain rfl := yields_query.1 hf
    obtain ⟨t, rfl, ht⟩ := asks_append_of_stamp hmove
    exact ⟨found, is₁ ++ is₃, [.time t], by simp [session, member], fun _ => ⟨s, m, rfl⟩, t, rfl, ht⟩
  | checkOut s m =>
    rcases asks_bind.1 h with h | ⟨u, is₁, is₂, rfl, _, hparticipant⟩
    · exact absurd h not_asks_require
    rcases asks_bind.1 hparticipant with h | ⟨v, is₃, is₄, rfl, _, hload⟩
    · exact (asks_requireParticipant h).elim
    rcases asks_bind.1 hload with h | ⟨r, is₅, is₆, rfl, hf, hmove⟩
    · cases asks_loadExisting h
    obtain rfl := yields_loadExisting hf
    obtain ⟨t, rfl, ht⟩ := asks_append_of_stamp hmove
    exact ⟨some r, is₁ ++ is₃, [.time t], by simp [session, member], (fun hn => by cases hn), t, rfl, ht⟩
  | request a s m wanted reason =>
    obtain ⟨r, is₂, rfl, hy⟩ := asks_append_of_load Correction.asks_request h
    exact ⟨some r, [], is₂, rfl, (fun hn => by cases hn), hy⟩
  | approve a s m reason =>
    obtain ⟨r, is₂, rfl, hy⟩ := asks_append_of_load Correction.asks_approve h
    exact ⟨some r, [], is₂, rfl, (fun hn => by cases hn), hy⟩
  | reject a s m reason =>
    obtain ⟨r, is₂, rfl, hy⟩ := asks_append_of_load Correction.asks_reject h
    exact ⟨some r, [], is₂, rfl, (fun hn => by cases hn), hy⟩

end Command

end Rollbook
