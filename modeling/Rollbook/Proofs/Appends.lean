import Rollbook.Proofs.World
/-
  Rollbook.Proofs.Appends — appends of many clients come one after the other.

  A store compares a number, and clients may offer anything they ever held: a record
  that was loaded long ago, a copy of one that was stored since, one that was never
  stored. The number is enough, in every reachable world and over either backend
  (`Serial`). Whoever is let through knew the whole log and adds to the end of it
  (`Extends`); whoever shows another version is turned away and nothing changes; and a log
  is what all those who were let through have added, each of them once.
-/

namespace Rollbook

open Ledger

/-- The log that was found, empty if there is none. -/
def logOf (found : Option Record) : List Event := (found.map Record.events).getD []

/-- The version that was found, 0 if there is none. -/
def versionOf (found : Option Record) : Version := (found.map Record.version).getD 0

namespace World

/-- The record may be offered to the store next, at the desk or by a call. -/
def Offers (w : World) (r : Record) : Prop :=
  r ∈ w.held ∨ ∃ c ∈ w.calls, ∃ next, c.rest = .ask (.append r) next

/-- The append of `r` has taken the store from `st` to `st'` and come back with `saved`: the log was the
    one that `r` counts as stored, now the other events of `r` stand behind it, and nothing else is
    different. -/
structure Extends (st st' : Store) (r saved : Record) : Prop where
  before : ∃ old, st.Answers (.find r.session r.member) old ∧ logOf old = r.events.take r.persisted ∧
    versionOf old = r.version ∧ ∀ k, old = some k → saved.id = k.id
  after : st'.Answers (.find r.session r.member) (some saved)
  events : saved.events = r.events.take r.persisted ++ r.uncommitted
  version : saved.version = r.version + 1
  numbered : ∃ id, saved.id = some id
  unused : ∀ session member k, (session, member) ≠ (r.session, r.member) →
    st.Answers (.find session member) (some k) → k.id ≠ saved.id
  others : ∀ session member found, (session, member) ≠ (r.session, r.member) →
    (st'.Answers (.find session member) found ↔ st.Answers (.find session member) found)

/-- The appends of a world have come one after the other. -/
structure Serial (w : World) : Prop where
  /-- The log of a session and member is what its appends have added in their order, its version is their
      number, and no two of them were made from the same version. -/
  history : ∀ session member, ∃ found, w.store.Answers (.find session member) found ∧
    logOf found = log (of w.ledger session member) ∧ versionOf found = (of w.ledger session member).length ∧
    (of w.ledger session member).Pairwise fun p q => p.version ≠ q.version
  adds : ∀ r, w.Offers r → r.uncommitted ≠ [] → ∀ saved, w.store.Answers (.append r) saved →
    Extends w.store (w.store.backend (.append r)).state r saved
  /-- A record with another version than its log conflicts with it. Tables that have no room for its
      events say that first, and so do those that have no number for the header it would need. -/
  outdated : ∀ r, w.Offers r → ∀ found, w.store.Answers (.find r.session r.member) found →
    versionOf found ≠ r.version →
    (w.store.backend (.append r)).state = w.store ∧
      ((w.store.backend (.append r)).result = .error (.conflict r.version (versionOf found)) ∨
        ((∃ t, w.store = .tables t) ∧ r.uncommitted ≠ [] ∧ Tables.lastPosition + 1 < r.events.length ∧
          (w.store.backend (.append r)).result = .error Store.tooLong) ∨
        (∃ t, w.store = .tables t ∧ Tables.lastNumber ≤ t.lastRecord) ∧ r.uncommitted ≠ [] ∧ r.id = none ∧
          (w.store.backend (.append r)).result = .error (.database .full))

end World

open World

variable {R : Rules} {P : List Event → Prop} {w : World} {s : Shelf} {r : Record}

/-! ## What a shelf finds -/

theorem logOf_find (hb : s.Balanced w.ledger) (session : SessionId) (member : MemberId) :
    logOf (s.find session member) = log (of w.ledger session member) := by
  unfold Shelf.find logOf
  cases hk : s.stored? session member with
  | none => rw [hb.missing _ _ hk]; rfl
  | some k => exact (hb.kept _ _ k hk).2.2

theorem versionOf_find (s : Shelf) (r : Record) : versionOf (s.find r.session r.member) = s.found r := by
  unfold Shelf.find versionOf Shelf.found
  cases s.stored? r.session r.member <;> rfl

theorem find_posted_other {session : SessionId} {member : MemberId}
    (h : (session, member) ≠ (r.session, r.member)) : (s.posted r).find session member = s.find session member := by
  unfold Shelf.find
  rw [Shelf.stored?_posted_other h]

/-- A posting is found as it came back. -/
theorem find_posted_self (hb : s.Balanced w.ledger) (hk : Known w.ledger s r) (hv : s.found r = r.version) :
    (s.posted r).find r.session r.member = some (r.stored (s.postedId r)) := by
  unfold Shelf.find
  rw [Shelf.stored?_posted_self hb, Shelf.events_of_found hk hb hv]
  show some (Record.rehydrate _ _ _ _ _) = _
  unfold Record.rehydrate Record.stored
  rw [hk.standing]

/-! ## Records on offer -/

theorem known_of_offers (hP : Kept R P) (hi : Inv R P w s) (ho : w.Offers r) : Known w.ledger s r := by
  rcases ho with hr | ⟨c, hc, next, hn⟩
  · exact (hi.held r hr).1
  · have hsound := hi.calls c hc
    exact (known_of_asks hP hsound ⟨next, hn ▸ hsound.leads⟩).1

theorem extends_posted (hi : Inv R P w s) (hk : Known w.ledger s r) (hv : s.found r = r.version) {st' : Store}
    (hs : st'.Shows (s.posted r)) : Extends w.store st' r (r.stored (s.postedId r)) := by
  have hfind := find_posted_self hi.balanced hk hv
  have hpersisted := Shelf.persisted_of_found hk hi.balanced hv
  refine ⟨⟨s.find r.session r.member, Store.find_eq hi.shown _ _, ?_, ?_, ?_⟩, ?_, ?_, rfl, ⟨_, rfl⟩, ?_, ?_⟩
  · rw [logOf_find hi.balanced, hpersisted]
  · rw [versionOf_find, hv]
  · intro k hfound
    obtain ⟨k₀, hk₀, rfl⟩ := Option.map_eq_some_iff.1 hfound
    exact congrArg some (Shelf.postedId_of_stored hk₀)
  · exact (Store.answers_find hs).2 hfind
  · exact (List.take_append_drop r.persisted r.events).symm
  · intro session member k hkey hfound
    obtain ⟨k₀, hk₀, rfl⟩ := Option.map_eq_some_iff.1 ((Store.answers_find hi.shown).1 hfound)
    show some k₀.id ≠ some (s.postedId r)
    intro he
    exact Shelf.postedId_other hi.balanced hkey hk₀ (Option.some.inj he)
  · intro session member found hkey
    refine (Store.answers_find hs).trans ?_
    rw [find_posted_other hkey]
    exact (Store.answers_find hi.shown).symm

/-- Postings of one session and member were made from different versions. -/
theorem pairwise_version {ledger : List Record} (ho : Ordered ledger) (session : SessionId) (member : MemberId) :
    (of ledger session member).Pairwise fun p q => p.version ≠ q.version := by
  rw [List.pairwise_iff_getElem]
  intro i j hi hj hlt he
  have hvi := (ho session member i _ (List.getElem?_eq_getElem hi)).1
  have hvj := (ho session member j _ (List.getElem?_eq_getElem hj)).1
  rw [hvi, hvj] at he
  exact absurd (Int.ofNat_inj.1 he) (Nat.ne_of_lt hlt)

/-- In every reachable world the appends have come one after the other, whoever has made them and
    whatever is still on offer. -/
theorem serial_of_reach (h : Reach R w) : Serial w := by
  obtain ⟨s, hi⟩ := inv_of_reach (kept_true R) h
  refine ⟨fun session member => ?_, fun r ho hu saved hsaved => ?_, fun r ho found hfound hv => ?_⟩
  · refine ⟨s.find session member, Store.find_eq hi.shown session member, logOf_find hi.balanced session member,
      ?_, pairwise_version hi.ordered session member⟩
    have hcount := versionOf_find s (.new session member)
    rw [Shelf.found_eq hi.balanced] at hcount
    exact hcount
  · have hk := known_of_offers (kept_true R) hi ho
    unfold Store.Answers at hsaved
    rcases Store.append_cases hi.shown hi.balanced hi.ordered hk with
      ⟨hv, -, st', happend, hs⟩ | ⟨-, hnone, -⟩ | ⟨e, notes, happend⟩
    · rw [happend] at hsaved ⊢
      cases hsaved
      exact extends_posted hi hk hv hs
    · exact absurd hnone hu
    · rw [happend] at hsaved
      cases hsaved
  · have hk := known_of_offers (kept_true R) hi ho
    obtain rfl := (Store.answers_find hi.shown).1 hfound
    rw [versionOf_find] at hv ⊢
    obtain ⟨e, notes, happend, he⟩ := Store.append_outdated hi.shown hi.balanced hi.ordered hk hv
    rw [happend]
    refine ⟨rfl, ?_⟩
    rcases he with rfl | ⟨ht, hu, hl, rfl⟩ | ⟨ht, hu, hid, rfl⟩
    · exact Or.inl rfl
    · exact Or.inr (Or.inl ⟨ht, hu, hl, rfl⟩)
    · exact Or.inr (Or.inr ⟨ht, hu, hid, rfl⟩)

/-- A client who keeps a copy of what it has stored and offers it again is turned away. -/
theorem serial_of_reach_stale : ∃ w : World, Reach ⟨true, false⟩ w ∧ Serial w ∧
    ∃ r, w.Offers r ∧ r.uncommitted ≠ [] ∧ (w.store.backend (.append r)).result = .error (.conflict 0 1) := by
  have hfresh := World.Reach.step (reach_school ⟨true, false⟩) (.fresh 7 1 rfl)
  have htransition : Command.Transition (.new 7 1) [.time morning] ((Record.new 7 1).add (.checkedIn morning))
      (.checkIn 7 1) := ⟨morning, rfl, rfl⟩
  have hchanged := World.Reach.step hfresh (.changed rfl List.mem_cons_self htransition (by simp))
  have hsaved := World.Reach.step hchanged (.saved rfl List.mem_cons_self rfl)
  exact ⟨_, hsaved, serial_of_reach hsaved, _, Or.inl (List.mem_cons_of_mem _ List.mem_cons_self), by decide, rfl⟩

end Rollbook
