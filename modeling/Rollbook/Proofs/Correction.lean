import Rollbook.Correction
import Rollbook.Proofs.Authority
import Rollbook.Proofs.Log
/-
  Rollbook.Proofs.Correction — the changes a record can go through.

  Five transitions add an event to a record: check-in, check-out, and the filing,
  approval and rejection of a correction. Each of the last three is walked through once
  (`yields_request`, `yields_approve`, `yields_reject`): what it has taken in, and what
  it then adds. `Change` is one of the five under any answers and any clock; it adds one
  event that follows the log (`follows_of_change`) and touches nothing else of the
  record.
-/

namespace Rollbook

open Plan

/-! ## Adding an event -/

namespace Record

/-- The status is kept up with the log, and no more events are stored than there are. -/
structure Sound (r : Record) : Prop where
  standing : r.standing = .ofLog r.events
  persisted : r.persisted ≤ r.events.length

theorem sound_new (session : SessionId) (member : MemberId) : (new session member).Sound :=
  ⟨rfl, Nat.le_refl _⟩

theorem sound_rehydrate (id : RecordId) (session : SessionId) (member : MemberId) (version : Version)
    (events : List Event) : (rehydrate id session member version events).Sound :=
  ⟨rfl, Nat.le_refl _⟩

theorem sound_add {r : Record} (h : r.Sound) (e : Event) : (r.add e).Sound := by
  refine ⟨?_, ?_⟩
  · show r.standing.apply e = Standing.ofLog (r.events ++ [e])
    rw [h.standing, Standing.ofLog, Standing.ofLog, List.foldl_append]
    rfl
  · have := h.persisted
    show r.persisted ≤ (r.events ++ [e]).length
    rw [List.length_append]
    omega

theorem sound_stored {r : Record} (h : r.Sound) (id : RecordId) : (r.stored id).Sound :=
  ⟨h.standing, Nat.le_refl _⟩

theorem uncommitted_add {r : Record} (h : r.Sound) (e : Event) :
    (r.add e).uncommitted = r.uncommitted ++ [e] :=
  List.drop_append_of_le_length h.persisted

theorem take_persisted_add {r : Record} (h : r.Sound) (e : Event) :
    (r.add e).events.take (r.add e).persisted = r.events.take r.persisted :=
  List.take_append_of_le_length h.persisted

theorem status_eq_foldStatus {r : Record} (h : r.Sound) : r.status = foldStatus r.events := by
  rw [status, h.standing, foldStatus]

end Record

/-! ## The three transitions of a correction -/

namespace Correction

theorem yields_request {record r' : Record} {actor : MemberId} {wanted : Status} {reason : String}
    {is : List Input} (h : Yields (request record actor wanted reason) is r') :
    ∃ grant is₁ t, is = is₁ ++ [.time t] ∧
      Yields (Authority.requestGrant actor record.session) is₁ (some grant) ∧
      (Text.trim reason).isEmpty = false ∧ record.correction = .idle ∧ record.status ≠ wanted ∧
      r' = record.add (.requested ⟨t, record.status, wanted, Text.trim reason, actor, grant⟩) := by
  obtain ⟨grant, is₁, is₂, rfl, hg, hk⟩ := yields_bind.1 h
  split at hk
  · obtain ⟨u, _, _, _, _, hf⟩ := yields_bind.1 hk
    exact absurd hf not_yields_fail
  · rename_i grant
    dsimp only at hk
    split at hk
    · exact absurd hk not_yields_fail
    · rename_i hr
      split at hk
      · exact absurd hk not_yields_fail
      · rename_i hi
        split at hk
        · exact absurd hk not_yields_fail
        · rename_i hs
          obtain ⟨t, is₃, is₄, rfl, ht, hn⟩ := yields_bind.1 hk
          obtain ⟨u, is₅, is₆, rfl, hl, hr'⟩ := yields_bind.1 hn
          obtain rfl := yields_now.1 ht
          obtain rfl := yields_log.1 hl
          obtain ⟨rfl, rfl⟩ := yields_pure.1 hr'
          refine ⟨grant, is₁, t, rfl, hg, by simpa using hr, ?_, hs, rfl⟩
          cases hc : record.correction with
          | idle => rfl
          | pending q => rw [hc] at hi; exact absurd rfl hi

theorem asks_request {record : Record} {actor : MemberId} {wanted : Status} {reason : String}
    {is : List Input} {q : Query} (h : Asks (request record actor wanted reason) is q) : q.IsLookup := by
  rcases asks_bind.1 h with h | ⟨grant, is₁, is₂, rfl, _, hk⟩
  · exact Authority.asks_requestGrant h
  · split at hk
    · simp [asks_bind] at hk
    · dsimp only at hk
      (repeat' split at hk) <;> simp [asks_bind] at hk

theorem yields_pendingOf {record : Record} {is : List Input} {pending : Request}
    (h : Yields (pendingOf record) is pending) : is = [] ∧ record.correction = .pending pending := by
  unfold pendingOf at h
  split at h
  · rename_i q hq
    obtain ⟨rfl, rfl⟩ := yields_pure.1 h
    exact ⟨rfl, hq⟩
  · exact absurd h not_yields_fail

theorem not_asks_pendingOf {record : Record} {is : List Input} {q : Query} :
    ¬ Asks (pendingOf record) is q := by
  unfold pendingOf
  split <;> simp

theorem yields_checkReview {record : Record} {reviewer : MemberId} {pending : Request} {is : List Input}
    {u : Unit} (h : Yields (checkReview record reviewer pending) is u) :
    ∃ a, Yields (ReviewAuthority.judge reviewer pending.requester pending.grant record.session) is a ∧
      a.allowed = true := by
  obtain ⟨a, is₁, is₂, rfl, ha, hk⟩ := yields_bind.1 h
  split at hk
  · rename_i hal
    obtain ⟨rfl, -⟩ := yields_pure.1 hk
    exact ⟨a, by simpa using ha, hal⟩
  · unfold refuseReview at hk
    split at hk <;> (obtain ⟨u, _, _, _, _, hf⟩ := yields_bind.1 hk; exact absurd hf not_yields_fail)

theorem asks_checkReview {record : Record} {reviewer : MemberId} {pending : Request} {is : List Input}
    {q : Query} (h : Asks (checkReview record reviewer pending) is q) : q.IsLookup := by
  rcases asks_bind.1 h with h | ⟨a, is₁, is₂, rfl, _, hk⟩
  · exact ReviewAuthority.asks_judge h
  · split at hk
    · exact absurd hk not_asks_pure
    · unfold refuseReview at hk
      split at hk <;> simp [asks_bind] at hk

theorem yields_approve {record r' : Record} {actor : MemberId} {reason : Option String}
    {is : List Input} (h : Yields (approve record actor reason) is r') :
    ∃ pending is₁ t, is = is₁ ++ [.time t] ∧ record.correction = .pending pending ∧
      Yields (checkReview record actor pending) is₁ () ∧
      r' = record.add
        (.corrected t record.status pending.wanted (approvalReason reason pending) actor) := by
  obtain ⟨pending, is₁, is₂, rfl, hq, hk⟩ := yields_bind.1 h
  obtain ⟨rfl, hp⟩ := yields_pendingOf hq
  obtain ⟨u, is₃, is₄, rfl, hc, hn⟩ := yields_bind.1 hk
  obtain ⟨t, is₅, is₆, rfl, ht, hl⟩ := yields_bind.1 hn
  obtain ⟨v, is₇, is₈, rfl, hl, hr⟩ := yields_bind.1 hl
  obtain rfl := yields_now.1 ht
  obtain rfl := yields_log.1 hl
  obtain ⟨rfl, rfl⟩ := yields_pure.1 hr
  exact ⟨pending, is₃, t, rfl, hp, hc, rfl⟩

theorem asks_approve {record : Record} {actor : MemberId} {reason : Option String} {is : List Input}
    {q : Query} (h : Asks (approve record actor reason) is q) : q.IsLookup := by
  rcases asks_bind.1 h with h | ⟨pending, is₁, is₂, rfl, _, hk⟩
  · exact absurd h not_asks_pendingOf
  · rcases asks_bind.1 hk with h | ⟨u, is₃, is₄, rfl, _, hn⟩
    · exact asks_checkReview h
    · simp [asks_bind] at hn

theorem yields_reject {record r' : Record} {actor : MemberId} {reason : String} {is : List Input}
    (h : Yields (reject record actor reason) is r') :
    ∃ pending is₁ t, is = is₁ ++ [.time t] ∧ record.correction = .pending pending ∧
      Yields (checkReview record actor pending) is₁ () ∧ (Text.trim reason).isEmpty = false ∧
      r' = record.add (.rejected t (Text.trim reason) actor) := by
  obtain ⟨pending, is₁, is₂, rfl, hq, hk⟩ := yields_bind.1 h
  obtain ⟨rfl, hp⟩ := yields_pendingOf hq
  obtain ⟨u, is₃, is₄, rfl, hc, hn⟩ := yields_bind.1 hk
  dsimp only at hn
  split at hn
  · exact absurd hn not_yields_fail
  · rename_i hr
    obtain ⟨t, is₅, is₆, rfl, ht, hl⟩ := yields_bind.1 hn
    obtain ⟨v, is₇, is₈, rfl, hl, hr'⟩ := yields_bind.1 hl
    obtain rfl := yields_now.1 ht
    obtain rfl := yields_log.1 hl
    obtain ⟨rfl, rfl⟩ := yields_pure.1 hr'
    exact ⟨pending, is₃, t, rfl, hp, hc, by simpa using hr, rfl⟩

theorem asks_reject {record : Record} {actor : MemberId} {reason : String} {is : List Input}
    {q : Query} (h : Asks (reject record actor reason) is q) : q.IsLookup := by
  rcases asks_bind.1 h with h | ⟨pending, is₁, is₂, rfl, _, hk⟩
  · exact absurd h not_asks_pendingOf
  · rcases asks_bind.1 hk with h | ⟨u, is₃, is₄, rfl, _, hn⟩
    · exact asks_checkReview h
    · dsimp only at hn
      split at hn <;> simp [asks_bind] at hn

end Correction

/-! ## Changes -/

/-- One of the transitions, whatever it was answered and whatever the clock showed. -/
inductive Change (r : Record) : Record → Prop
  | checkIn {r' : Record} (t : Instant) : r.checkIn t = .ok r' → Change r r'
  | checkOut {r' : Record} (t : Instant) : r.checkOut t = .ok r' → Change r r'
  | request {r' : Record} (actor : MemberId) (wanted : Status) (reason : String) (is : List Input) :
      Yields (Correction.request r actor wanted reason) is r' → Change r r'
  | approve {r' : Record} (actor : MemberId) (reason : Option String) (is : List Input) :
      Yields (Correction.approve r actor reason) is r' → Change r r'
  | reject {r' : Record} (actor : MemberId) (reason : String) (is : List Input) :
      Yields (Correction.reject r actor reason) is r' → Change r r'

theorem eq_add_of_checkIn {r r' : Record} {t : Instant} (h : r.checkIn t = .ok r') :
    openReversed r.events.reverse = false ∧ r' = r.add (.checkedIn t) := by
  unfold Record.checkIn at h
  split at h
  · cases h
  · rename_i hc
    cases h
    exact ⟨Bool.eq_false_iff.2 hc, rfl⟩

theorem eq_add_of_checkOut {r r' : Record} {t : Instant} (h : r.checkOut t = .ok r') :
    openReversed r.events.reverse = true ∧ r' = r.add (.checkedOut t) := by
  unfold Record.checkOut at h
  split at h
  · rename_i hc
    cases h
    exact ⟨hc, rfl⟩
  · cases h

/-- A change adds one event, and the event follows the log. -/
theorem follows_of_change {r r' : Record} (hs : r.Sound) (h : Change r r') :
    ∃ e, r' = r.add e ∧ e.Follows r.events := by
  cases h with
  | checkIn t h =>
    obtain ⟨hc, rfl⟩ := eq_add_of_checkIn h
    exact ⟨_, rfl, hc⟩
  | checkOut t h =>
    obtain ⟨hc, rfl⟩ := eq_add_of_checkOut h
    exact ⟨_, rfl, hc⟩
  | request actor wanted reason is h =>
    obtain ⟨grant, is₁, t, -, hg, -, hi, hne, rfl⟩ := Correction.yields_request h
    exact ⟨_, rfl, hi, Record.status_eq_foldStatus hs, fun he => hne he.symm,
      Authority.one_le_rank_of_requestGrant hg⟩
  | approve actor reason is h =>
    obtain ⟨pending, is₁, t, -, hp, -, rfl⟩ := Correction.yields_approve h
    exact ⟨_, rfl, pending, hp, Record.status_eq_foldStatus hs, rfl⟩
  | reject actor reason is h =>
    obtain ⟨pending, is₁, t, -, hp, -, -, rfl⟩ := Correction.yields_reject h
    exact ⟨_, rfl, pending, hp⟩

end Rollbook
