import Rollbook.Proofs.Correction
import Rollbook.Shelf
/-
  Rollbook.Proofs.Ledger — the appends that went through, and what they make of a shelf.

  A ledger lists the records of all appends that added events, the first one first. The
  shelf is a function of it (`Shelf.Balanced`): under each session and member lies the
  events of its postings one after the other, and its version is their number. So the
  version of a log says which log it was, and a record that shows version `v` knows
  exactly the events of the first `v` postings (`Known`). That is all an append
  compares.

  `append_outdated` / `append_idle` / `append_posted` are the three things an append can
  do; the last one is a posting, keeps the shelf balanced (`balanced_posted`) and leaves
  what all others know true (`known_posted`).
-/

namespace Rollbook

/-! ## Postings -/

namespace Ledger

/-- The postings of one session and member. -/
def of (ledger : List Record) (session : SessionId) (member : MemberId) : List Record :=
  ledger.filter fun r => r.session = session ∧ r.member = member

/-- The events that postings added. -/
def log (posts : List Record) : List Event := posts.flatMap Record.uncommitted

theorem of_append_self (ledger : List Record) (r : Record) :
    of (ledger ++ [r]) r.session r.member = of ledger r.session r.member ++ [r] := by
  simp [of]

theorem of_append_other (ledger : List Record) {r : Record} {session : SessionId} {member : MemberId}
    (h : (session, member) ≠ (r.session, r.member)) :
    of (ledger ++ [r]) session member = of ledger session member := by
  have hr : ¬ (r.session = session ∧ r.member = member) := by
    rintro ⟨rfl, rfl⟩
    exact h rfl
  simp [of, hr]

/-- A posting is added behind those of its session and member and touches no others. -/
theorem of_append (ledger : List Record) (r : Record) (session : SessionId) (member : MemberId) :
    ∃ rest, of (ledger ++ [r]) session member = of ledger session member ++ rest := by
  by_cases h : (session, member) = (r.session, r.member)
  · cases h
    exact ⟨[r], of_append_self ledger r⟩
  · exact ⟨[], by rw [of_append_other ledger h, List.append_nil]⟩

theorem log_append (posts : List Record) (r : Record) : log (posts ++ [r]) = log posts ++ r.uncommitted := by
  simp [log]

end Ledger

/-- Each posting was made from the version that counts those before it, and wrote the log as far as it
    went then. -/
def Ledger.Ordered (ledger : List Record) : Prop :=
  ∀ session member (i : Nat) r, (of ledger session member)[i]? = some r →
    r.version = i ∧ r.uncommitted ≠ [] ∧ r.events = log ((of ledger session member).take (i + 1))

open Ledger

namespace Shelf

/-- What lies on the shelf under a session and a member is what the ledger adds up to, and every log
    has a number of its own. -/
structure Balanced (ledger : List Record) (s : Shelf) : Prop where
  counted : 0 ≤ s.lastId
  missing : ∀ session member, s.stored? session member = none → of ledger session member = []
  kept : ∀ session member k, s.stored? session member = some k →
    of ledger session member ≠ [] ∧ k.version = (of ledger session member).length ∧
      k.events = log (of ledger session member)
  issued : ∀ session member k, s.stored? session member = some k → 1 ≤ k.id ∧ k.id ≤ s.lastId
  distinct : ∀ session member k session' member' k', s.stored? session member = some k →
    s.stored? session' member' = some k' → k.id = k'.id → (session, member) = (session', member')

theorem balanced_empty : Balanced [] .empty := by
  refine ⟨Int.le_refl _, fun _ _ _ => rfl, ?_, ?_, ?_⟩
  · intro _ _ _ h; cases h
  · intro _ _ _ h; cases h
  · intro _ _ _ _ _ _ h; cases h

/-- The version that an append finds. -/
def found (s : Shelf) (r : Record) : Version := ((s.stored? r.session r.member).map (·.version)).getD 0

theorem found_eq {ledger : List Record} {s : Shelf} (h : s.Balanced ledger) (r : Record) :
    s.found r = (of ledger r.session r.member).length := by
  unfold found
  cases hk : s.stored? r.session r.member with
  | none => rw [h.missing _ _ hk]; rfl
  | some k => exact (h.kept _ _ k hk).2.1

end Shelf

/-! ## What a record knows -/

/-- The record shows a version that its log has reached, and with it exactly the events that were
    stored by then, under the number of the log. -/
structure Known (ledger : List Record) (s : Shelf) (r : Record) : Prop extends r.Sound where
  behind : ∃ v : Nat, r.version = v ∧ v ≤ (of ledger r.session r.member).length ∧
    r.events.take r.persisted = log ((of ledger r.session r.member).take v)
  id : r.id = if r.version = 0 then none else (s.stored? r.session r.member).map (·.id)

theorem known_new (ledger : List Record) (s : Shelf) (session : SessionId) (member : MemberId) :
    Known ledger s (.new session member) :=
  ⟨Record.sound_new session member, ⟨0, rfl, Nat.zero_le _, rfl⟩, rfl⟩

/-- A record as it is found is known. -/
theorem known_found {ledger : List Record} {s : Shelf} (h : s.Balanced ledger) {session : SessionId}
    {member : MemberId} {r : Record} (hr : s.find session member = some r) : Known ledger s r := by
  obtain ⟨k, hk, rfl⟩ := Option.map_eq_some_iff.1 hr
  obtain ⟨hne, hv, he⟩ := h.kept _ _ k hk
  refine ⟨Record.sound_rehydrate .., ⟨(of ledger session member).length, hv, Nat.le_refl _, ?_⟩, ?_⟩
  · show k.events.take k.events.length = log ((of ledger session member).take (of ledger session member).length)
    rw [List.take_length, List.take_length, he]
  · have h0 : k.version ≠ 0 := by
      have := List.length_pos_iff.2 hne
      lia
    show some k.id = if k.version = 0 then none else (s.stored? session member).map (·.id)
    rw [if_neg h0, hk]
    rfl

theorem known_add {ledger : List Record} {s : Shelf} {r : Record} (h : Known ledger s r) (e : Event) :
    Known ledger s (r.add e) := by
  obtain ⟨v, hv, hle, hlog⟩ := h.behind
  exact ⟨Record.sound_add h.toSound e,
    ⟨v, hv, hle, (Record.take_persisted_add h.toSound e).trans hlog⟩, h.id⟩

theorem known_change {ledger : List Record} {s : Shelf} {r r' : Record} (h : Known ledger s r)
    (hc : Change r r') : Known ledger s r' := by
  obtain ⟨e, rfl, -⟩ := follows_of_change h.toSound hc
  exact known_add h e

/-- Nothing of a record with version 0 is stored. -/
theorem id_of_unsaved {ledger : List Record} {s : Shelf} {r : Record} (h : Known ledger s r)
    (hv : r.version = 0) : r.id = none ∧ r.persisted = 0 := by
  refine ⟨by rw [h.id, if_pos hv], ?_⟩
  obtain ⟨v, hrv, -, hlog⟩ := h.behind
  rw [hv] at hrv
  obtain rfl : v = 0 := (Int.natCast_eq_zero.1 hrv.symm)
  have hlen := congrArg List.length hlog
  rw [List.length_take, Nat.min_eq_left h.persisted] at hlen
  exact hlen

/-- A record with a higher version has a log on the shelf and its number. -/
theorem id_of_saved {ledger : List Record} {s : Shelf} {r : Record} (h : Known ledger s r)
    (hb : s.Balanced ledger) (hv : r.version ≠ 0) :
    ∃ k, s.stored? r.session r.member = some k ∧ r.id = some k.id := by
  have hid := h.id
  rw [if_neg hv] at hid
  cases hk : s.stored? r.session r.member with
  | some k => exact ⟨k, rfl, by rw [hid, hk]; rfl⟩
  | none =>
    obtain ⟨v, hrv, hle, -⟩ := h.behind
    rw [hb.missing _ _ hk] at hle
    obtain rfl : v = 0 := Nat.le_zero.1 hle
    exact absurd hrv hv

theorem uncommitted_of_ordered {ledger : List Record} (ho : Ordered ledger) {session : SessionId}
    {member : MemberId} {p : Record} (hp : p ∈ of ledger session member) : p.uncommitted ≠ [] := by
  obtain ⟨i, hi⟩ := List.getElem?_of_mem hp
  exact (ho _ _ i p hi).2.1

theorem length_le_log {posts : List Record} (h : ∀ p ∈ posts, p.uncommitted ≠ []) :
    posts.length ≤ (log posts).length := by
  induction posts with
  | nil => exact Nat.le_refl _
  | cons p posts ih =>
    have hp := List.length_pos_iff.2 (h p List.mem_cons_self)
    have hposts := ih fun q hq => h q (List.mem_cons_of_mem p hq)
    show posts.length + 1 ≤ (p.uncommitted ++ log posts).length
    rw [List.length_append]
    omega

/-- Every posting stored an event, so a version is no higher than the number of events. -/
theorem version_le_length {ledger : List Record} {s : Shelf} {r : Record} (ho : Ordered ledger)
    (h : Known ledger s r) : r.version ≤ r.events.length := by
  obtain ⟨v, hv, hle, hlog⟩ := h.behind
  have hposts : ∀ p ∈ (of ledger r.session r.member).take v, p.uncommitted ≠ [] := fun p hp =>
    uncommitted_of_ordered ho (List.mem_of_mem_take hp)
  have hlen := length_le_log hposts
  rw [← hlog, List.length_take, List.length_take, Nat.min_eq_left hle] at hlen
  have hv' : v ≤ r.events.length := Nat.le_trans hlen (Nat.min_le_right _ _)
  rw [hv]
  exact Int.ofNat_le.2 hv'

namespace Shelf

variable {ledger : List Record} {s : Shelf} {r : Record}

/-- A record that shows the version of its log knows the whole log. -/
theorem persisted_of_found (h : Known ledger s r) (hb : s.Balanced ledger) (hv : s.found r = r.version) :
    r.events.take r.persisted = log (of ledger r.session r.member) := by
  obtain ⟨v, hrv, -, hlog⟩ := h.behind
  rw [found_eq hb, hrv] at hv
  rw [hlog, ← Int.ofNat_inj.1 hv, List.take_length]

theorem length_of_found (h : Known ledger s r) (hb : s.Balanced ledger) (hv : s.found r = r.version) :
    (log (of ledger r.session r.member)).length = r.persisted := by
  rw [← persisted_of_found h hb hv, List.length_take, Nat.min_eq_left h.persisted]

/-- What a posting leaves in its log is what it shows. -/
theorem events_of_found (h : Known ledger s r) (hb : s.Balanced ledger) (hv : s.found r = r.version) :
    log (of ledger r.session r.member) ++ r.uncommitted = r.events := by
  rw [← persisted_of_found h hb hv]
  exact List.take_append_drop _ _

/-- A log whose version is still 0 does not lie on the shelf. -/
theorem unstored_of_found (hb : s.Balanced ledger) (h : s.found r = 0) :
    s.stored? r.session r.member = none := by
  cases hk : s.stored? r.session r.member with
  | none => rfl
  | some k =>
    have hpos := List.length_pos_iff.2 (hb.kept _ _ k hk).1
    rw [found_eq hb] at h
    exact absurd (Int.natCast_eq_zero.1 h) (Nat.ne_of_gt hpos)

/-- A log on the shelf is found with its version. -/
theorem found_of_stored {k : Stored} (hk : s.stored? r.session r.member = some k) : s.found r = k.version := by
  unfold found
  rw [hk]
  rfl

/-! ## What an append does -/

theorem append_outdated (h : s.found r ≠ r.version) :
    s.append r = ⟨.error (.conflict r.version (s.found r)), s,
      [.versionConflict r.session r.member r.version (s.found r)]⟩ := by
  unfold append
  exact if_pos h

theorem append_idle (hv : s.found r = r.version) (h : r.uncommitted = []) :
    s.append r = ⟨.ok r, s, []⟩ := by
  unfold append
  rw [if_neg (fun hne => hne hv), h]
  rfl

/-- The number under which a posting is kept. -/
def postedId (s : Shelf) (r : Record) : RecordId :=
  ((s.stored? r.session r.member).map (·.id)).getD (s.lastId + 1)

/-- The shelf after a posting. -/
def posted (s : Shelf) (r : Record) : Shelf where
  lastId := if (s.stored? r.session r.member).isSome then s.lastId else s.lastId + 1
  records := Keyed.put (r.session, r.member)
    ⟨s.postedId r, r.version + 1,
      ((s.stored? r.session r.member).map (·.events)).getD [] ++ r.uncommitted⟩ s.records

theorem append_posted (hv : s.found r = r.version) (h : r.uncommitted ≠ []) :
    s.append r = ⟨.ok (r.stored (s.postedId r)), s.posted r, []⟩ := by
  have he : ¬ r.uncommitted.isEmpty = true := by rwa [List.isEmpty_iff]
  unfold append posted postedId
  dsimp only
  rw [if_neg (fun hne => hne hv), if_neg he, ← hv]
  unfold found
  cases s.stored? r.session r.member <;> rfl

/-! ## What a posting keeps -/

theorem stored?_posted (s : Shelf) (r : Record) (session : SessionId) (member : MemberId) :
    (s.posted r).stored? session member =
      if (session, member) = (r.session, r.member) then
        some ⟨s.postedId r, r.version + 1,
          ((s.stored? r.session r.member).map (·.events)).getD [] ++ r.uncommitted⟩
      else s.stored? session member := by
  unfold stored? posted
  rw [Keyed.lookup_put]
  by_cases h : (session, member) = (r.session, r.member)
  · rw [if_pos h, if_pos (beq_iff_eq.2 h)]
    rfl
  · rw [if_neg h, if_neg (fun hb => h (beq_iff_eq.1 hb))]

theorem stored?_posted_other {session : SessionId} {member : MemberId}
    (h : (session, member) ≠ (r.session, r.member)) :
    (s.posted r).stored? session member = s.stored? session member := by
  rw [stored?_posted, if_neg h]

theorem stored?_posted_self (hb : s.Balanced ledger) :
    (s.posted r).stored? r.session r.member =
      some ⟨s.postedId r, r.version + 1, log (of ledger r.session r.member) ++ r.uncommitted⟩ := by
  rw [stored?_posted, if_pos rfl]
  cases hk : s.stored? r.session r.member with
  | none => rw [hb.missing _ _ hk]; rfl
  | some k => rw [← (hb.kept _ _ k hk).2.2]; rfl

theorem postedId_of_stored {k : Stored} (h : s.stored? r.session r.member = some k) : s.postedId r = k.id := by
  unfold postedId
  rw [h]
  rfl

theorem postedId_of_unstored (h : s.stored? r.session r.member = none) : s.postedId r = s.lastId + 1 := by
  unfold postedId
  rw [h]
  rfl

/-- A posting keeps the number of its log or takes one that no log has, so no other log has it. -/
theorem postedId_other (hb : s.Balanced ledger) {session : SessionId} {member : MemberId} {k : Stored}
    (h : (session, member) ≠ (r.session, r.member)) (hs : s.stored? session member = some k) :
    k.id ≠ s.postedId r := by
  intro he
  cases hk : s.stored? r.session r.member with
  | none =>
    rw [postedId_of_unstored hk] at he
    have hle := (hb.issued _ _ k hs).2
    lia
  | some k₀ =>
    rw [postedId_of_stored hk] at he
    exact h (hb.distinct _ _ k _ _ k₀ hs hk he)

/-- A log on the shelf after a posting is the one that was added to, or another one as it was before. -/
theorem stored_of_posted (hb : s.Balanced ledger) {session : SessionId} {member : MemberId} {k : Stored}
    (h : (s.posted r).stored? session member = some k) :
    ((session, member) = (r.session, r.member) ∧
        k = ⟨s.postedId r, r.version + 1, log (of ledger r.session r.member) ++ r.uncommitted⟩) ∨
      ((session, member) ≠ (r.session, r.member) ∧ s.stored? session member = some k ∧ k.id ≠ s.postedId r) := by
  by_cases hkey : (session, member) = (r.session, r.member)
  · cases hkey
    rw [stored?_posted_self hb] at h
    exact Or.inl ⟨rfl, (Option.some.inj h).symm⟩
  · rw [stored?_posted_other hkey] at h
    exact Or.inr ⟨hkey, h, postedId_other hb hkey h⟩

theorem lastId_le_posted (s : Shelf) (r : Record) : s.lastId ≤ (s.posted r).lastId := by
  unfold posted
  dsimp only
  split
  · exact Int.le_refl _
  · lia

theorem postedId_issued (hb : s.Balanced ledger) (r : Record) :
    1 ≤ s.postedId r ∧ s.postedId r ≤ (s.posted r).lastId := by
  cases hk : s.stored? r.session r.member with
  | some k =>
    have hk' := hb.issued _ _ k hk
    have hle := lastId_le_posted s r
    rw [postedId_of_stored hk]
    exact ⟨hk'.1, Int.le_trans hk'.2 hle⟩
  | none =>
    have hl : (s.posted r).lastId = s.lastId + 1 := by
      show (if (s.stored? r.session r.member).isSome then s.lastId else s.lastId + 1) = _
      rw [hk]
      rfl
    have h0 := hb.counted
    rw [postedId_of_unstored hk, hl]
    exact ⟨by lia, Int.le_refl _⟩

/-- A posting keeps the shelf balanced. -/
theorem balanced_posted (hb : s.Balanced ledger) (hv : s.found r = r.version) :
    (s.posted r).Balanced (ledger ++ [r]) := by
  refine ⟨Int.le_trans hb.counted (lastId_le_posted s r), ?_, ?_, ?_, ?_⟩
  · intro session member hnone
    by_cases h : (session, member) = (r.session, r.member)
    · cases h
      rw [stored?_posted_self hb] at hnone
      cases hnone
    · rw [stored?_posted_other h] at hnone
      rw [of_append_other ledger h]
      exact hb.missing _ _ hnone
  · intro session member k hsome
    rcases stored_of_posted hb hsome with ⟨h, rfl⟩ | ⟨h, hold, -⟩
    · cases h
      rw [of_append_self, log_append, List.length_append]
      refine ⟨List.concat_ne_nil _ _, ?_, rfl⟩
      have hf := found_eq hb r
      rw [← hv, hf]
      rfl
    · rw [of_append_other ledger h]
      exact hb.kept _ _ k hold
  · intro session member k hsome
    rcases stored_of_posted hb hsome with ⟨-, rfl⟩ | ⟨-, hold, -⟩
    · exact postedId_issued hb r
    · have hle := lastId_le_posted s r
      exact ⟨(hb.issued _ _ k hold).1, Int.le_trans (hb.issued _ _ k hold).2 hle⟩
  · intro session member k session' member' k' hsome hsome' he
    rcases stored_of_posted hb hsome with ⟨h, rfl⟩ | ⟨-, hold, hne⟩ <;>
      rcases stored_of_posted hb hsome' with ⟨h', rfl⟩ | ⟨-, hold', hne'⟩
    · rw [h, h']
    · exact absurd he.symm hne'
    · exact absurd he hne
    · exact hb.distinct _ _ k _ _ k' hold hold' he

/-- A posting comes last in its log. -/
theorem ordered_posted (ho : Ordered ledger) (hb : s.Balanced ledger) (hk : Known ledger s r)
    (hv : s.found r = r.version) (hu : r.uncommitted ≠ []) : Ordered (ledger ++ [r]) := by
  intro session member i p hi
  by_cases h : (session, member) = (r.session, r.member)
  · cases h
    rw [of_append_self] at hi ⊢
    rcases Nat.lt_or_ge i (of ledger r.session r.member).length with hlt | hge
    · rw [List.getElem?_append_left hlt] at hi
      rw [List.take_append_of_le_length hlt]
      exact ho _ _ i p hi
    · rw [List.getElem?_append_right hge, List.getElem?_singleton] at hi
      split at hi
      · rename_i h0
        cases hi
        have hlen : i = (of ledger r.session r.member).length := by omega
        refine ⟨by rw [← hv, found_eq hb, hlen], hu, ?_⟩
        rw [List.take_of_length_le (by rw [List.length_append, List.length_singleton]; omega), log_append,
          events_of_found hk hb hv]
      · cases hi
  · rw [of_append_other ledger h] at hi ⊢
    exact ho _ _ i p hi

/-- What was known before a posting stays true. -/
theorem known_posted (hb : s.Balanced ledger) {r' : Record} (hr' : Known ledger s r') :
    Known (ledger ++ [r]) (s.posted r) r' := by
  obtain ⟨v, hv, hle, hlog⟩ := hr'.behind
  obtain ⟨rest, hrest⟩ := of_append ledger r r'.session r'.member
  refine ⟨hr'.toSound, ⟨v, hv, ?_, ?_⟩, ?_⟩
  · rw [hrest, List.length_append]
    omega
  · rw [hrest, List.take_append_of_le_length hle, hlog]
  · rw [hr'.id]
    by_cases h0 : r'.version = 0
    · rw [if_pos h0, if_pos h0]
    · rw [if_neg h0, if_neg h0]
      by_cases h : (r'.session, r'.member) = (r.session, r.member)
      · rw [Prod.mk.injEq] at h
        rw [h.1, h.2, stored?_posted_self hb]
        -- a version above 0 has been stored, so its log had a number already
        cases hk : s.stored? r.session r.member with
        | some k => rw [postedId_of_stored hk]; rfl
        | none =>
          rw [h.1, h.2, hb.missing _ _ hk] at hle
          have : v = 0 := Nat.le_zero.1 hle
          exact absurd (by rw [hv, this]; rfl) h0
      · rw [stored?_posted_other h]

/-- What comes back from a posting is known. -/
theorem known_saved (hb : s.Balanced ledger) (hk : Known ledger s r) (hv : s.found r = r.version) :
    Known (ledger ++ [r]) (s.posted r) (r.stored (s.postedId r)) := by
  have hf := found_eq hb r
  refine ⟨Record.sound_stored hk.toSound _, ⟨(of ledger r.session r.member).length + 1, ?_, ?_, ?_⟩, ?_⟩
  · show r.version + 1 = _
    rw [← hv, hf]
    rfl
  · show _ ≤ (of (ledger ++ [r]) r.session r.member).length
    rw [of_append_self, List.length_append]
    exact Nat.le_refl _
  · show r.events.take r.events.length = log ((of (ledger ++ [r]) r.session r.member).take _)
    have hlen : (of ledger r.session r.member).length + 1 = (of ledger r.session r.member ++ [r]).length := by
      rw [List.length_append]; rfl
    rw [of_append_self, hlen, List.take_length, List.take_length, log_append, events_of_found hk hb hv]
  · show some (s.postedId r) = if r.version + 1 = 0 then none else ((s.posted r).stored? r.session r.member).map (·.id)
    have h0 : r.version + 1 ≠ 0 := by
      have := hk.behind
      lia
    rw [if_neg h0, stored?_posted_self hb]
    rfl

end Shelf

end Rollbook
