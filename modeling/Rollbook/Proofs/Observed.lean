import Rollbook.Proofs.Explained
/-
  Rollbook.Proofs.Observed — three things to know of a record.

  A record tells whether the member is checked in, what the status is and whether a
  correction is pending (`Observed`). Each is found in its own way: the status is kept up
  from the beginning of the log, and the other two are looked for from its end, each past
  different events. The log itself may be any list of events, also one that no calls have
  led to.

  Still the three are all there is to know. What a move does to them can be told from
  them alone (`Observed.next`), and the record does just that, or it fails where there is
  nothing to do (`observed_move`). So a record that makes one move after the other shows
  at any time what the three have come to (`observed_of_built`).

  The status behind a check-out is where this could go wrong, for the three do not say
  what an approved correction has hidden. It has hidden PRESENT: only who is checked in
  can check out.
-/

namespace Rollbook

open Plan

variable {σ α β : Type}

/-! ## What a record shows -/

structure Observed where
  checkedIn : Bool
  status : Status
  correction : Correction
  deriving DecidableEq

def Record.observed (r : Record) : Observed := ⟨r.checkedIn, r.status, r.correction⟩

/-- The records there can be: new ones and stored ones with any log, and what comes of them. -/
inductive Record.Built : Record → Prop
  | new (session : SessionId) (member : MemberId) : Built (.new session member)
  | rehydrate (id : RecordId) (session : SessionId) (member : MemberId) (version : Version) (log : List Event) :
      Built (.rehydrate id session member version log)
  | add {r : Record} (e : Event) : Built r → Built (r.add e)
  | stored {r : Record} (id : RecordId) : Built r → Built (r.stored id)

theorem sound_of_built {r : Record} (h : r.Built) : r.Sound := by
  induction h with
  | new session member => exact Record.sound_new session member
  | rehydrate id session member version log => exact Record.sound_rehydrate id session member version log
  | add e _ ih => exact Record.sound_add ih e
  | stored id _ ih => exact Record.sound_stored ih id

/-! ## Moves -/

inductive Move where
  | checkIn
  | checkOut
  | request (actor : MemberId) (wanted : Status) (reason : String)
  | approve (actor : MemberId) (reason : Option String)
  | reject (actor : MemberId) (reason : String)

def Move.plan (r : Record) : Move → Plan Record
  | .checkIn => Plan.now >>= fun t => Plan.lift (r.checkIn t)
  | .checkOut => Plan.now >>= fun t => Plan.lift (r.checkOut t)
  | .request actor wanted reason => Correction.request r actor wanted reason
  | .approve actor reason => Correction.approve r actor reason
  | .reject actor reason => Correction.reject r actor reason

namespace Moment

variable (w : Moment σ)

/-- The standing under which the actor may file a correction now. -/
def grant (actor : MemberId) (session : SessionId) : Option Grant :=
  (w.answer (Authority.requestGrant actor session)).join

/-- The reviewer may decide on the request now. -/
def allows (reviewer : MemberId) (session : SessionId) (q : Request) : Bool :=
  (w.answer (ReviewAuthority.judge reviewer q.requester q.grant session)).any ReviewAuthority.allowed

end Moment

/-- What a move makes of the three things, where it can be made. -/
def Observed.next (v : Observed) (w : Moment σ) (session : SessionId) : Move → Option Observed
  | .checkIn => if v.checkedIn then none else some ⟨true, .present, v.correction⟩
  | .checkOut => if v.checkedIn then some ⟨false, .present, v.correction⟩ else none
  | .request actor wanted reason =>
    if Text.allBlank reason || !v.correction.isIdle || v.status = wanted then none
    else (w.grant actor session).map fun g =>
      { v with correction := .pending ⟨w.time, v.status, wanted, Text.trim reason, actor, g⟩ }
  | .approve actor _ =>
    match v.correction with
    | .pending q => if w.allows actor session q then some ⟨v.checkedIn, q.wanted, .idle⟩ else none
    | .idle => none
  | .reject actor reason =>
    match v.correction with
    | .pending q =>
      if w.allows actor session q && !Text.allBlank reason then some { v with correction := .idle } else none
    | .idle => none

/-! ## What the moves answer -/

theorem Text.isEmpty_trim (text : String) : (Text.trim text).isEmpty = Text.allBlank text := by
  rw [Bool.eq_iff_iff, String.isEmpty_iff]
  exact Text.trim_eq_empty

namespace Moment

variable {w : Moment σ} {r : Record}

theorem answer_checkIn :
    w.answer (Move.checkIn.plan r) = if r.checkedIn then none else some (r.add (.checkedIn w.time)) := by
  show (r.checkIn w.time).toOption = _
  unfold Record.checkIn
  split <;> rfl

theorem answer_checkOut :
    w.answer (Move.checkOut.plan r) = if r.checkedIn then some (r.add (.checkedOut w.time)) else none := by
  show (r.checkOut w.time).toOption = _
  unfold Record.checkOut
  split <;> rfl

theorem answer_request {actor : MemberId} {wanted : Status} {reason : String} :
    w.answer (Correction.request r actor wanted reason) =
      if Text.allBlank reason || !r.correction.isIdle || r.status = wanted then none
      else (w.grant actor r.session).map fun g =>
        r.add (.requested ⟨w.time, r.status, wanted, Text.trim reason, actor, g⟩) := by
  unfold Correction.request grant
  rw [answer_bind]
  cases w.answer (Authority.requestGrant actor r.session) with
  | none => simp
  | some found =>
    cases found with
    | none =>
      show none = _
      simp
    | some g =>
      rw [Option.bind_some, Option.join_some, Option.map_some]
      dsimp only
      rw [Text.isEmpty_trim]
      cases Text.allBlank reason with
      | true => rfl
      | false =>
        cases r.correction.isIdle with
        | false => rfl
        | true =>
          by_cases hsame : r.status = wanted
          · simp [hsame]
            rfl
          · simp [hsame]
            rfl

theorem answer_checkReview {reviewer : MemberId} {q : Request} :
    w.answer (Correction.checkReview r reviewer q) = if w.allows reviewer r.session q then some () else none := by
  unfold Correction.checkReview allows
  rw [answer_bind]
  cases w.answer (ReviewAuthority.judge reviewer q.requester q.grant r.session) with
  | none => rfl
  | some a => cases a <;> rfl

theorem answer_approve {actor : MemberId} {reason : Option String} :
    w.answer (Correction.approve r actor reason) =
      match r.correction with
      | .pending q =>
        if w.allows actor r.session q then
          some (r.add (.corrected w.time r.status q.wanted (Correction.approvalReason reason q) actor))
        else none
      | .idle => none := by
  unfold Correction.approve Correction.pendingOf
  cases r.correction with
  | idle => rfl
  | pending q =>
    dsimp only
    show w.answer (Correction.checkReview r actor q >>= _) = _
    rw [answer_bind, answer_checkReview]
    cases w.allows actor r.session q <;> rfl

theorem answer_reject {actor : MemberId} {reason : String} :
    w.answer (Correction.reject r actor reason) =
      match r.correction with
      | .pending q =>
        if w.allows actor r.session q && !Text.allBlank reason then
          some (r.add (.rejected w.time (Text.trim reason) actor))
        else none
      | .idle => none := by
  unfold Correction.reject Correction.pendingOf
  cases r.correction with
  | idle => rfl
  | pending q =>
    dsimp only
    show w.answer (Correction.checkReview r actor q >>= _) = _
    rw [answer_bind, answer_checkReview]
    cases w.allows actor r.session q with
    | false => rfl
    | true =>
      rw [Text.isEmpty_trim]
      cases Text.allBlank reason <;> rfl

end Moment

/-! ## What the moves show -/

theorem observed_add (r : Record) (e : Event) :
    (r.add e).observed = ⟨e.presence.getD r.checkedIn, (r.standing.apply e).status,
      match e.filing with
      | some true => (e.request?.map Correction.pending).getD .idle
      | some false => .idle
      | none => r.correction⟩ := by
  unfold Record.observed
  congr 1
  · exact open_concat r.events e
  · exact correction_concat r.events e

/-- Behind a check-out the status is PRESENT, whatever it was before. -/
theorem status_checkedOut {r : Record} (h : r.Built) (hin : r.checkedIn = true) (t : Instant) :
    (r.standing.apply (.checkedOut t)).status = .present := by
  rw [(sound_of_built h).standing]
  exact derived_of_open hin

/-- What resolves a request can be told from the request that is pending. -/
theorem observed_resolution {c : Correction} {f : Request → Option Record} {g : Request → Option Observed}
    (h : ∀ q, (f q).map Record.observed = g q) :
    (match c with
      | .pending q => f q
      | .idle => none).map Record.observed =
      match c with
      | .pending q => g q
      | .idle => none := by
  cases c with
  | idle => rfl
  | pending q => exact h q

/-- A move can be made where the three things say so, and it makes of them what they say. -/
theorem observed_move {r : Record} (h : r.Built) (w : Moment σ) (m : Move) :
    (w.answer (m.plan r)).map Record.observed = r.observed.next w r.session m := by
  cases m with
  | checkIn =>
    rw [Moment.answer_checkIn, apply_ite (Option.map Record.observed), Option.map_some, observed_add]
    rfl
  | checkOut =>
    rw [Moment.answer_checkOut]
    cases hin : r.checkedIn with
    | false =>
      show none = if r.checkedIn then _ else none
      rw [hin]
      rfl
    | true =>
      show some (r.add (.checkedOut w.time)).observed = if r.checkedIn then _ else none
      rw [observed_add, status_checkedOut h hin, hin]
      rfl
  | request actor wanted reason =>
    show (w.answer (Correction.request r actor wanted reason)).map _ = _
    rw [Moment.answer_request, apply_ite (Option.map Record.observed), Option.map_map]
    simp only [Function.comp_def, observed_add]
    rfl
  | approve actor reason =>
    show (w.answer (Correction.approve r actor reason)).map _ = _
    rw [Moment.answer_approve]
    refine observed_resolution fun q => ?_
    rw [apply_ite (Option.map Record.observed), Option.map_some, observed_add]
    rfl
  | reject actor reason =>
    show (w.answer (Correction.reject r actor reason)).map _ = _
    rw [Moment.answer_reject]
    refine observed_resolution fun q => ?_
    rw [apply_ite (Option.map Record.observed), Option.map_some, observed_add]
    rfl

theorem change_of_move {r r' : Record} {w : Moment σ} {m : Move} (h : w.answer (m.plan r) = some r') :
    Change r r' := by
  have hrun := w.answer_eq_some.1 h
  cases m with
  | checkIn => exact .checkIn w.time hrun
  | checkOut => exact .checkOut w.time hrun
  | request actor wanted reason =>
    obtain ⟨is, hy⟩ := yields_of_run hrun
    exact .request actor wanted reason is hy
  | approve actor reason =>
    obtain ⟨is, hy⟩ := yields_of_run hrun
    exact .approve actor reason is hy
  | reject actor reason =>
    obtain ⟨is, hy⟩ := yields_of_run hrun
    exact .reject actor reason is hy

/-! ## One move after the other -/

/-- A move that cannot be made leaves the record as it is. -/
def Record.turn (r : Record) (turn : Moment σ × Move) : Record := (turn.1.answer (turn.2.plan r)).getD r

def Record.play (r : Record) (turns : List (Moment σ × Move)) : Record := turns.foldl Record.turn r

/-- The three things after a move, which stay as they are where it cannot be made. -/
def Observed.turn (session : SessionId) (v : Observed) (turn : Moment σ × Move) : Observed :=
  (v.next turn.1 session turn.2).getD v

def Observed.play (session : SessionId) (v : Observed) (turns : List (Moment σ × Move)) : Observed :=
  turns.foldl (Observed.turn session) v

theorem turn_cases {r : Record} (h : r.Built) (turn : Moment σ × Move) :
    r.turn turn = r ∨ ∃ e, r.turn turn = r.add e := by
  unfold Record.turn
  cases hanswer : turn.1.answer (turn.2.plan r) with
  | none => exact Or.inl rfl
  | some r' =>
    obtain ⟨e, he, -⟩ := follows_of_change (sound_of_built h) (change_of_move hanswer)
    exact Or.inr ⟨e, he⟩

theorem built_turn {r : Record} (h : r.Built) (turn : Moment σ × Move) :
    (r.turn turn).Built ∧ (r.turn turn).session = r.session := by
  rcases turn_cases h turn with hstays | ⟨e, hadds⟩
  · rw [hstays]
    exact ⟨h, rfl⟩
  · rw [hadds]
    exact ⟨.add e h, rfl⟩

theorem observed_turn {r : Record} (h : r.Built) (turn : Moment σ × Move) :
    (r.turn turn).observed = r.observed.turn r.session turn := by
  unfold Record.turn Observed.turn
  rw [← observed_move h]
  cases turn.1.answer (turn.2.plan r) <;> rfl

theorem observed_play {r : Record} (h : r.Built) (turns : List (Moment σ × Move)) :
    (r.play turns).observed = r.observed.play r.session turns := by
  induction turns generalizing r with
  | nil => rfl
  | cons turn turns ih =>
    obtain ⟨hbuilt, hsession⟩ := built_turn h turn
    show ((r.turn turn).play turns).observed = (r.observed.turn r.session turn).play r.session turns
    rw [ih hbuilt, hsession, observed_turn h]

/-- Whoever answers and whatever the clock shows, a record makes a move where the three things it shows allow it, and
    shows afterwards what they say; nothing else of it changes but that the log has one more event. A move that cannot
    be made leaves it as it is. So much holds of every move, and of any number of them one after the other. -/
theorem observed_of_built {r : Record} (h : r.Built) :
    (∀ (w : Moment σ) (m : Move),
      (w.answer (m.plan r)).map Record.observed = r.observed.next w r.session m ∧
      ∀ r', w.answer (m.plan r) = some r' → ∃ e, r' = r.add e) ∧
    ∀ turns : List (Moment σ × Move), (r.play turns).observed = r.observed.play r.session turns := by
  refine ⟨fun w m => ⟨observed_move h w m, fun r' hanswer => ?_⟩, observed_play h⟩
  obtain ⟨e, he, -⟩ := follows_of_change (sound_of_built h) (change_of_move hanswer)
  exact ⟨e, he⟩

/-- The school in the morning. -/
def atSchool : Moment Store := (Store.memory ⟨school, .empty⟩).moment morning

/-- A log that no calls have led to: the member has come twice, and a correction was approved that nobody has asked
    for. A new one is requested, and the requester may not approve it. So it is still pending when the member goes, and
    a manager approves it. -/
theorem observed_of_built_odd : ∃ (r : Record) (turns : List (Moment Store × Move)), r.Built ∧ ¬ Lawful r.events ∧
    r.observed = ⟨true, .leftEarly, .idle⟩ ∧
    (r.play (turns.take 3)).observed =
      ⟨false, .present, .pending ⟨morning, .leftEarly, .late, "bus", 2, ⟨.course, 1⟩⟩⟩ ∧
    (r.play turns).observed = ⟨false, .late, .idle⟩ := by
  have hbuilt := Record.Built.rehydrate 4 7 1 9
    [.checkedIn morning, .checkedIn morning, .corrected morning .present .leftEarly "?" 8]
  refine ⟨_, [(atSchool, .request 2 .late " bus "), (atSchool, .approve 2 none), (atSchool, .checkOut),
    (atSchool, .approve 3 none)], hbuilt, ?_, rfl, ?_, ?_⟩
  · intro hlawful
    have hsecond : Event.Follows [.checkedIn morning] (.checkedIn morning) := hlawful [.checkedIn morning] _ _ rfl
    cases hsecond
  · exact ((observed_of_built hbuilt).2 _).trans rfl
  · exact ((observed_of_built hbuilt).2 _).trans rfl

end Rollbook
