import Rollbook.Proofs.Service
import Rollbook.Proofs.Store
/-
  Rollbook.Proofs.World — everyone at once, over either backend.

  A world is a store and all that is going on around it. Calls of the service are on
  their way, each of them stopped before its next question; at a desk, clients hold
  records that they loaded, made or got back from an append, change them and offer them
  for an append at any later time, the same one as often as they like; roles and
  sessions are administered, and the clock is set. A step is one move of one of them
  (`Step`), so a reachable world is what any interleaving may come to (`Reach`).

  The world remembers each append that added events (`posted`) and, of a call, what it
  has heard and what the store was like then (`heard`). No step looks at either.

  - `inv_of_reach`: the logs are what the postings add up to, and every record that may
    still be offered, stale or not, knows what was stored when it was loaded (`Inv`).
  - `kept_of_reach`: what every transition keeps of a log holds of every stored log.
-/

namespace Rollbook

open Ledger Plan

/-- What may happen around the calls. -/
structure Rules where
  /-- Clients handle records themselves. -/
  desk : Bool
  /-- The clock never goes back. -/
  steady : Bool

/-- Something a call has taken in, and the store and the clock as they were then. -/
structure Heard where
  input : Input
  store : Store
  clock : Instant

/-- What was heard is what the store answered and what the clock showed. -/
inductive Heard.Holds : Heard → Prop
  | answer {q : Query} {a : q.Answer} {st : Store} {t : Instant} : st.Answers q a → Holds ⟨.answer q a, st, t⟩
  | time {st : Store} {t : Instant} : Holds ⟨.time t, st, t⟩

/-- A call on its way. -/
structure Call where
  command : Command
  heard : List Heard
  rest : Plan Record

namespace Call

def start (c : Command) : Call := ⟨c, [], c.plan⟩

def inputs (c : Call) : List Input := c.heard.map Heard.input

/-- The call after it has taken something in. -/
def hear (c : Call) (x : Heard) (rest : Plan Record) : Call := ⟨c.command, c.heard ++ [x], rest⟩

end Call

/-- An append that added events, and the call that made it unless it was made at the desk. -/
structure Posting where
  record : Record
  call : Option Call

structure World where
  store : Store
  clock : Instant
  /-- The records at the desk. -/
  held : List Record
  calls : List Call
  /-- The first one first. -/
  posted : List Posting

namespace World

def ledger (w : World) : List Record := w.posted.map Posting.record

/-- The world after an append. -/
def append (w : World) (r : Record) (call : Option Call) : World :=
  let reply := w.store.backend (.append r)
  { w with
    store := reply.state
    posted := match reply.result with
      | .ok _ => if r.uncommitted = [] then w.posted else w.posted ++ [⟨r, call⟩]
      | .error _ => w.posted }

/-- The world after a question of a call. -/
def ask (w : World) (c : Call) : Query → World
  | .append r => w.append r (some c)
  | q => { w with store := (w.store.backend q).state }

variable (R : Rules)

inductive Step (w : World) : World → Prop
  /-- A record that was never stored. -/
  | fresh (session : SessionId) (member : MemberId) : R.desk = true →
      Step w { w with held := .new session member :: w.held }
  | found {session : SessionId} {member : MemberId} {r : Record} : R.desk = true →
      w.store.Answers (.find session member) (some r) → Step w { w with held := r :: w.held }
  | listed {member : MemberId} {sessions : List SessionId} {rs : List Record} : R.desk = true →
      w.store.Answers (.findAll member sessions) rs → Step w { w with held := rs ++ w.held }
  /-- A transition at the desk, whatever it was answered; the record from before it is kept too. -/
  | changed {r r' : Record} {c : Command} {is : List Input} : R.desk = true → r ∈ w.held →
      c.Transition r is r' → (∀ t, .time t ∈ is → t = w.clock) → Step w { w with held := r' :: w.held }
  | saved {r r' : Record} : R.desk = true → r ∈ w.held → w.store.Answers (.append r) r' →
      Step w { w.append r none with held := r' :: w.held }
  | turnedDown {r : Record} {e : Failure} : R.desk = true → r ∈ w.held →
      (w.store.backend (.append r)).result = .error e → Step w (w.append r none)
  | begun (c : Command) : Step w { w with calls := .start c :: w.calls }
  | answered {before after : List Call} {c : Call} {q : Query} {next : q.Answer → Plan Record} {a : q.Answer} :
      w.calls = before ++ c :: after → c.rest = .ask q next → w.store.Answers q a →
      Step w { w.ask c q with calls := before ++ c.hear ⟨.answer q a, w.store, w.clock⟩ (next a) :: after }
  /-- A question that fails ends the call. -/
  | refused {before after : List Call} {c : Call} {q : Query} {next : q.Answer → Plan Record} {e : Failure} :
      w.calls = before ++ c :: after → c.rest = .ask q next → (w.store.backend q).result = .error e →
      Step w { w.ask c q with calls := before ++ after }
  | stamped {before after : List Call} {c : Call} {next : Instant → Plan Record} :
      w.calls = before ++ c :: after → c.rest = .clock next →
      Step w { w with calls := before ++ c.hear ⟨.time w.clock, w.store, w.clock⟩ (next w.clock) :: after }
  | noted {before after : List Call} {c : Call} {n : Notice} {next : Plan Record} :
      w.calls = before ++ c :: after → c.rest = .note n next →
      Step w { w with calls := before ++ { c with rest := next } :: after }
  /-- A call ends without being asked any more: it is over, given up, or what it asked is down. -/
  | left {before after : List Call} {c : Call} : w.calls = before ++ c :: after →
      Step w { w with calls := before ++ after }
  | ticked (t : Instant) : (R.steady = true → w.clock ≤ t) → Step w { w with clock := t }
  /-- Roles, sessions, members and courses change in any way. -/
  | administered {st : Store} : w.store.SameLogs st → Step w { w with store := st }

inductive Reach : World → Prop
  | start {st : Store} (t : Instant) : st.Blank → Reach ⟨st, t, [], [], []⟩
  | step {w w' : World} : Reach w → Step R w w' → Reach w'

end World

/-! ## The invariant -/

section

variable (R : Rules) (P : List Event → Prop)

/-- Every transition keeps `P` of a log. Without a desk the first one of a record is a check-in. -/
structure Kept : Prop where
  empty : P []
  step : ∀ (c : Command) (is : List Input) (r r' : Record), r.Sound → P r.events → c.Transition r is r' →
    (R.desk = false → r.events = [] → ∃ session member, c = .checkIn session member) → P r'.events

/-- A record that was found, and may be stale by now. -/
structure Loaded (ledger : List Record) (s : Shelf) (r : Record) : Prop extends Known ledger s r where
  keeps : P r.events
  nonempty : r.events ≠ []

/-- The call has come to where it is by what it has heard, and what it has loaded was stored. -/
structure Call.Sound (ledger : List Record) (s : Shelf) (c : Call) : Prop where
  leads : Leads c.command.plan c.inputs c.rest
  holds : ∀ x ∈ c.heard, x.Holds
  loaded : ∀ x ∈ c.heard, ∀ session member r, x.input = .answer (.find session member) (some r) →
    Loaded P ledger s r

/-- A posting was made at the desk, or by a call that had come to ask for it. -/
structure Posting.Sound (p : Posting) : Prop where
  called : R.desk = false → ∃ c, p.call = some c
  asks : ∀ c, p.call = some c → Asks c.command.plan c.inputs (.append p.record) ∧ ∀ x ∈ c.heard, x.Holds

/-- The logs are on the shelf `s` as the postings add up to it, and all who are around know of them what
    is true. -/
structure Inv (w : World) (s : Shelf) : Prop where
  shown : w.store.Shows s
  balanced : s.Balanced w.ledger
  ordered : Ordered w.ledger
  logs : ∀ session member k, s.stored? session member = some k → P k.events
  held : ∀ r ∈ w.held, Known w.ledger s r ∧ P r.events
  calls : ∀ c ∈ w.calls, c.Sound P w.ledger s
  postings : ∀ p ∈ w.posted, p.Sound R

end

variable {R : Rules} {P : List Event → Prop} {w : World} {s : Shelf}

/-! ## What is found and what is appended -/

theorem loaded_of_find (hi : Inv R P w s) {session : SessionId} {member : MemberId} {r : Record}
    (h : s.find session member = some r) : Loaded P w.ledger s r := by
  have hknown := known_found hi.balanced h
  obtain ⟨k, hk, rfl⟩ := Option.map_eq_some_iff.1 h
  refine ⟨hknown, hi.logs _ _ k hk, ?_⟩
  show k.events ≠ []
  obtain ⟨hne, -, he⟩ := hi.balanced.kept _ _ k hk
  have hlen := length_le_log fun p (hp : p ∈ of w.ledger session member) => uncommitted_of_ordered hi.ordered hp
  have hpos := List.length_pos_iff.2 hne
  rw [he]
  exact List.length_pos_iff.1 (by omega)

theorem loaded_of_answers (hi : Inv R P w s) {session : SessionId} {member : MemberId} {r : Record}
    (h : w.store.Answers (.find session member) (some r)) : Loaded P w.ledger s r :=
  loaded_of_find hi ((Store.answers_find hi.shown).1 h)

/-- What a call comes to append is known, and `P` holds of its log. -/
theorem known_of_asks (hP : Kept R P) {ledger : List Record} {c : Call} (hc : c.Sound P ledger s)
    {r : Record} (ha : Asks c.command.plan c.inputs (.append r)) : Known ledger s r ∧ P r.events := by
  obtain ⟨found, is₁, is₂, his, hnone, ht⟩ := Command.asks_append ha
  cases found with
  | none =>
    have hnew := known_new ledger s c.command.session c.command.member
    exact ⟨known_change hnew (Command.change_of_transition ht),
      hP.step c.command is₂ _ r hnew.toSound hP.empty ht fun _ _ => hnone rfl⟩
  | some r₀ =>
    have hmem : Input.answer (.find c.command.session c.command.member) (some r₀) ∈ c.inputs := by
      rw [his]
      exact List.mem_append_right _ List.mem_cons_self
    obtain ⟨x, hx, hin⟩ := List.mem_map.1 hmem
    have hl := hc.loaded x hx _ _ r₀ hin
    exact ⟨known_change hl.toKnown (Command.change_of_transition ht),
      hP.step c.command is₂ _ r hl.toSound hl.keeps ht fun _ he => absurd he hl.nonempty⟩

theorem loaded_posted (hb : s.Balanced w.ledger) {r r' : Record} (h : Loaded P w.ledger s r') :
    Loaded P (w.ledger ++ [r]) (s.posted r) r' := ⟨Shelf.known_posted hb h.toKnown, h.keeps, h.nonempty⟩

theorem sound_posted (hb : s.Balanced w.ledger) {r : Record} {c : Call} (h : c.Sound P w.ledger s) :
    c.Sound P (w.ledger ++ [r]) (s.posted r) :=
  ⟨h.leads, h.holds, fun x hx session member r' hin => loaded_posted hb (h.loaded x hx session member r' hin)⟩

/-- A world with one posting more. -/
def World.post (w : World) (r : Record) (call : Option Call) (st : Store) : World :=
  { w with store := st, posted := w.posted ++ [⟨r, call⟩] }

theorem ledger_post (w : World) (r : Record) (call : Option Call) (st : Store) :
    (w.post r call st).ledger = w.ledger ++ [r] := List.map_append

theorem append_post {r saved : Record} {call : Option Call} {st : Store} {notes : List Notice}
    (h : w.store.backend (.append r) = ⟨.ok saved, st, notes⟩) (hu : r.uncommitted ≠ []) :
    w.append r call = w.post r call st := by
  unfold World.append World.post
  rw [h]
  dsimp only
  rw [if_neg hu]

/-- An append that adds nothing, or fails, leaves no posting. -/
theorem append_rest {r : Record} {call : Option Call} {res : Except Failure Record} {notes : List Notice}
    (h : w.store.backend (.append r) = ⟨res, w.store, notes⟩) (hres : ∀ saved, res = .ok saved → r.uncommitted = []) :
    w.append r call = w := by
  unfold World.append
  rw [h]
  cases res with
  | ok saved =>
    dsimp only
    rw [if_pos (hres saved rfl)]
  | error e => rfl

theorem inv_post (hi : Inv R P w s) {r : Record} {call : Option Call} (hk : Known w.ledger s r) (hp : P r.events)
    (hc : Posting.Sound R ⟨r, call⟩) (hv : s.found r = r.version) (hu : r.uncommitted ≠ []) {st : Store}
    (hs : st.Shows (s.posted r)) : Inv R P (w.post r call st) (s.posted r) := by
  refine ⟨hs, ?_, ?_, ?_, ?_, ?_, ?_⟩
  · rw [ledger_post]
    exact Shelf.balanced_posted hi.balanced hv
  · rw [ledger_post]
    exact Shelf.ordered_posted hi.ordered hi.balanced hk hv hu
  · intro session member k hs
    rcases Shelf.stored_of_posted hi.balanced hs with ⟨-, rfl⟩ | ⟨-, hold, -⟩
    · rw [Shelf.events_of_found hk hi.balanced hv]
      exact hp
    · exact hi.logs _ _ k hold
  · intro r' hr'
    rw [ledger_post]
    exact ⟨Shelf.known_posted hi.balanced (hi.held r' hr').1, (hi.held r' hr').2⟩
  · intro c hc'
    rw [ledger_post]
    exact sound_posted hi.balanced (hi.calls c hc')
  · intro p hp'
    rcases List.mem_append.1 hp' with hp' | hp'
    · exact hi.postings p hp'
    · rw [List.mem_singleton.1 hp']
      exact hc

/-- An append keeps the invariant, and what comes back from it is known. -/
theorem inv_append (hi : Inv R P w s) {r : Record} {call : Option Call} (hk : Known w.ledger s r) (hp : P r.events)
    (hc : Posting.Sound R ⟨r, call⟩) :
    ∃ s', Inv R P (w.append r call) s' ∧
      ∀ saved, w.store.Answers (.append r) saved → Known (w.append r call).ledger s' saved ∧ P saved.events := by
  unfold Store.Answers
  rcases Store.append_cases hi.shown hi.balanced hi.ordered hk with
    ⟨hv, hu, st', happend, hs⟩ | ⟨-, hu, happend⟩ | ⟨e, notes, happend⟩
  · rw [append_post happend hu]
    refine ⟨s.posted r, inv_post hi hk hp hc hv hu hs, fun saved hsaved => ?_⟩
    rw [happend] at hsaved
    cases hsaved
    rw [ledger_post]
    exact ⟨Shelf.known_saved hi.balanced hk hv, hp⟩
  · rw [append_rest happend fun _ _ => hu]
    refine ⟨s, hi, fun saved hsaved => ?_⟩
    rw [happend] at hsaved
    cases hsaved
    exact ⟨hk, hp⟩
  · rw [append_rest happend fun saved h => by cases h]
    refine ⟨s, hi, fun saved hsaved => ?_⟩
    rw [happend] at hsaved
    cases hsaved

/-! ## Every step keeps it -/

/-- A question of a call changes nothing unless it is an append. -/
theorem ask_cases (w : World) (c : Call) (q : Query) : (∃ r, q = .append r) ∨ w.ask c q = w := by
  cases q with
  | append r => exact Or.inl ⟨r, rfl⟩
  | _ =>
    right
    show { w with store := _ } = w
    rw [Store.state_eq (fun r he => by cases he) w.store]

theorem mem_calls {before after : List Call} {c : Call} (hc : w.calls = before ++ c :: after) : c ∈ w.calls := by
  rw [hc]
  exact List.mem_append_right _ List.mem_cons_self

theorem inv_held (hi : Inv R P w s) {rs : List Record} (h : ∀ r ∈ rs, Known w.ledger s r ∧ P r.events) :
    Inv R P { w with held := rs } s :=
  ⟨hi.shown, hi.balanced, hi.ordered, hi.logs, h, hi.calls, hi.postings⟩

theorem inv_calls (hi : Inv R P w s) {cs : List Call} (h : ∀ c ∈ cs, c.Sound P w.ledger s) :
    Inv R P { w with calls := cs } s :=
  ⟨hi.shown, hi.balanced, hi.ordered, hi.logs, hi.held, h, hi.postings⟩

theorem inv_store (hi : Inv R P w s) {st : Store} (h : st.Shows s) : Inv R P { w with store := st } s :=
  ⟨h, hi.balanced, hi.ordered, hi.logs, hi.held, hi.calls, hi.postings⟩

theorem inv_hold (hi : Inv R P w s) {r : Record} (h : Known w.ledger s r ∧ P r.events) :
    Inv R P { w with held := r :: w.held } s := by
  refine inv_held hi fun r' hr' => ?_
  rcases List.mem_cons.1 hr' with rfl | hr'
  · exact h
  · exact hi.held r' hr'

/-- What holds of all calls holds of them still when one of them goes on. -/
theorem forall_replaced {Q : Call → Prop} {calls before after : List Call} {c c' : Call}
    (hc : calls = before ++ c :: after) (h : ∀ d ∈ calls, Q d) (h' : Q c') : ∀ d ∈ before ++ c' :: after, Q d := by
  subst hc
  rw [List.forall_mem_append, List.forall_mem_cons] at h ⊢
  exact ⟨h.1, h', h.2.2⟩

theorem forall_removed {Q : Call → Prop} {calls before after : List Call} {c : Call}
    (hc : calls = before ++ c :: after) (h : ∀ d ∈ calls, Q d) : ∀ d ∈ before ++ after, Q d := by
  subst hc
  rw [List.forall_mem_append, List.forall_mem_cons] at h
  exact List.forall_mem_append.2 ⟨h.1, h.2.2⟩

/-- One call in the place of another. -/
theorem inv_replace (hi : Inv R P w s) {before after : List Call} {c c' : Call}
    (hc : w.calls = before ++ c :: after) (h : c'.Sound P w.ledger s) :
    Inv R P { w with calls := before ++ c' :: after } s := inv_calls hi (forall_replaced hc hi.calls h)

theorem inv_remove (hi : Inv R P w s) {before after : List Call} {c : Call}
    (hc : w.calls = before ++ c :: after) : Inv R P { w with calls := before ++ after } s :=
  inv_calls hi (forall_removed hc hi.calls)

theorem sound_of_desk (hd : R.desk = true) (r : Record) : Posting.Sound R ⟨r, none⟩ := by
  refine ⟨fun hno => ?_, fun c hc => by cases hc⟩
  rw [hno] at hd
  cases hd

theorem sound_start (c : Command) (ledger : List Record) (s : Shelf) : (Call.start c).Sound P ledger s :=
  ⟨.here _, (fun x hx => by cases hx), (fun x hx => by cases hx)⟩

theorem sound_hear {ledger : List Record} {c : Call} (h : c.Sound P ledger s) {x : Heard} {rest : Plan Record}
    (hl : Leads c.rest [x.input] rest) (hx : x.Holds)
    (hload : ∀ session member r, x.input = .answer (.find session member) (some r) → Loaded P ledger s r) :
    (c.hear x rest).Sound P ledger s := by
  refine ⟨?_, ?_, ?_⟩
  · show Leads c.command.plan ((c.heard ++ [x]).map Heard.input) rest
    rw [List.map_append]
    exact leads_append h.leads hl
  · intro y hy
    rcases List.mem_append.1 hy with hy | hy
    · exact h.holds y hy
    · rw [List.mem_singleton.1 hy]
      exact hx
  · intro y hy
    rcases List.mem_append.1 hy with hy | hy
    · exact h.loaded y hy
    · rw [List.mem_singleton.1 hy]
      exact hload

/-- What a question of a call leaves behind: the invariant, and the call that asked. -/
theorem inv_ask (hP : Kept R P) (hi : Inv R P w s) {c : Call} (hc : c.Sound P w.ledger s) {q : Query}
    {next : q.Answer → Plan Record} (hn : c.rest = .ask q next) :
    ∃ s', Inv R P (w.ask c q) s' ∧ c.Sound P (w.ask c q).ledger s' ∧ (w.ask c q).calls = w.calls ∧
      (w.ask c q).held = w.held := by
  have hasks : Asks c.command.plan c.inputs q := ⟨next, hn ▸ hc.leads⟩
  rcases ask_cases w c q with ⟨r, rfl⟩ | hask
  · obtain ⟨hk, hp⟩ := known_of_asks hP hc hasks
    have hposting : Posting.Sound R ⟨r, some c⟩ := by
      refine ⟨fun _ => ⟨c, rfl⟩, fun c' hc' => ?_⟩
      cases hc'
      exact ⟨hasks, hc.holds⟩
    -- the asking call is one of those that the append leaves sound
    have hi' : Inv R P { w with calls := c :: w.calls } s := by
      refine inv_calls hi fun d hd => ?_
      rcases List.mem_cons.1 hd with rfl | hd
      · exact hc
      · exact hi.calls d hd
    obtain ⟨s', hinv, -⟩ := inv_append hi' hk hp hposting
    have hcalls : ({ w with calls := c :: w.calls }.append r (some c)).calls = c :: w.calls := rfl
    refine ⟨s', ?_, ?_, rfl, rfl⟩
    · show Inv R P { { w with calls := c :: w.calls }.append r (some c) with calls := w.calls } s'
      exact inv_calls hinv fun d hd => hinv.calls d (by rw [hcalls]; exact List.mem_cons_of_mem c hd)
    · exact hinv.calls c (by rw [hcalls]; exact List.mem_cons_self)
  · rw [hask]
    exact ⟨s, hi, hc, rfl, rfl⟩

theorem step_inv (hP : Kept R P) (hi : Inv R P w s) {w' : World} (h : w.Step R w') : ∃ s', Inv R P w' s' := by
  cases h with
  | fresh session member hd => exact ⟨s, inv_hold hi ⟨known_new _ _ session member, hP.empty⟩⟩
  | found hd hr =>
    have hl := loaded_of_answers hi hr
    exact ⟨s, inv_hold hi ⟨hl.toKnown, hl.keeps⟩⟩
  | listed hd hrs =>
    refine ⟨s, inv_held hi fun r hr => ?_⟩
    rcases List.mem_append.1 hr with hr | hr
    · obtain ⟨session, hfind⟩ := Store.find_of_findAll hi.shown hrs hr
      have hl := loaded_of_find hi hfind
      exact ⟨hl.toKnown, hl.keeps⟩
    · exact hi.held r hr
  | changed hd hr hc ht =>
    obtain ⟨hk, hp⟩ := hi.held _ hr
    refine ⟨s, inv_hold hi ⟨known_change hk (Command.change_of_transition hc), ?_⟩⟩
    exact hP.step _ _ _ _ hk.toSound hp hc fun hno => by rw [hno] at hd; cases hd
  | saved hd hr ha =>
    obtain ⟨hk, hp⟩ := hi.held _ hr
    obtain ⟨s', hinv, hsaved⟩ := inv_append hi hk hp (sound_of_desk hd _)
    exact ⟨s', inv_hold hinv (hsaved _ ha)⟩
  | turnedDown hd hr he =>
    obtain ⟨hk, hp⟩ := hi.held _ hr
    obtain ⟨s', hinv, -⟩ := inv_append hi hk hp (sound_of_desk hd _)
    exact ⟨s', hinv⟩
  | begun c =>
    refine ⟨s, inv_calls hi fun d hd => ?_⟩
    rcases List.mem_cons.1 hd with rfl | hd
    · exact sound_start c _ _
    · exact hi.calls d hd
  | @answered before after c q next a hc hn ha =>
    have hsound := hi.calls c (mem_calls hc)
    obtain ⟨s', hinv, hsound', hcalls, -⟩ := inv_ask hP hi hsound hn
    refine ⟨s', inv_replace hinv (hcalls.trans hc) (sound_hear hsound' ?_ (.answer ha) ?_)⟩
    · rw [hn]
      exact .ask (.here _)
    · intro session member r hin
      cases hin
      rcases ask_cases w c (.find session member) with ⟨r, he⟩ | hask
      · cases he
      · rw [hask] at hinv ⊢
        exact loaded_of_answers hinv ha
  | refused hc hn he =>
    have hsound := hi.calls _ (mem_calls hc)
    obtain ⟨s', hinv, -, hcalls, -⟩ := inv_ask hP hi hsound hn
    exact ⟨s', inv_remove hinv (hcalls.trans hc)⟩
  | stamped hc hn =>
    have hsound := hi.calls _ (mem_calls hc)
    refine ⟨s, inv_replace hi hc (sound_hear hsound ?_ .time ?_)⟩
    · rw [hn]
      exact .clock (.here _)
    · intro session member r hin
      cases hin
  | @noted before after c n next hc hn =>
    have hsound := hi.calls _ (mem_calls hc)
    refine ⟨s, inv_replace hi hc ⟨?_, hsound.holds, hsound.loaded⟩⟩
    have hnote : Leads c.rest [] next := by
      rw [hn]
      exact .note (.here next)
    have hleads := leads_append hsound.leads hnote
    rwa [List.append_nil] at hleads
  | left hc => exact ⟨s, inv_remove hi hc⟩
  | ticked t ht => exact ⟨s, hi.shown, hi.balanced, hi.ordered, hi.logs, hi.held, hi.calls, hi.postings⟩
  | administered hst => exact ⟨s, inv_store hi (Store.shows_of_sameLogs hst hi.shown)⟩

/-- In every reachable world the logs are what the postings add up to. -/
theorem inv_of_reach (hP : Kept R P) (h : World.Reach R w) : ∃ s, Inv R P w s := by
  induction h with
  | start t hst =>
    refine ⟨.empty, Store.shows_of_blank hst, Shelf.balanced_empty, ?_, ?_, ?_, ?_, ?_⟩
    · intro session member i r hr
      cases hr
    · intro session member k hk
      cases hk
    · intro r hr
      cases hr
    · intro c hc
      cases hc
    · intro p hp
      cases hp
  | step _ hs ih =>
    obtain ⟨s, hi⟩ := ih
    exact step_inv hP hi hs

/-- Whatever every transition keeps of a log holds of every stored log. -/
theorem kept_of_reach (hP : Kept R P) (h : World.Reach R w) {session : SessionId} {member : MemberId} {r : Record}
    (hr : w.store.Answers (.find session member) (some r)) : P r.events := by
  obtain ⟨s, hi⟩ := inv_of_reach hP h
  exact (loaded_of_answers hi hr).keeps

/-- Nothing is asked of the logs. -/
theorem kept_true (R : Rules) : Kept R fun _ => True := ⟨trivial, fun _ _ _ _ _ _ _ _ => trivial⟩

/-! ## A call that nobody comes between -/

theorem store_ask (w : World) (c : Call) (q : Query) : (w.ask c q).store = (w.store.backend q).state := by
  cases q <;> rfl

theorem clock_ask (w : World) (c : Call) (q : Query) : (w.ask c q).clock = w.clock := by
  cases q <;> rfl

theorem reach_rest {w : World} (hw : w.Reach R) {before after : List Call} {c : Call}
    (hc : w.calls = before ++ c :: after) :
    ∃ w', World.Reach R w' ∧ w'.store = (c.rest.run Store.backend w.clock w.store).state ∧ w'.clock = w.clock := by
  obtain ⟨command, heard, rest⟩ := c
  induction rest generalizing w heard with
  | done result => exact ⟨w, hw, rfl, rfl⟩
  | ask q next ih =>
    cases hr : w.store.backend q with
    | mk result st notes =>
      have hstore : (w.ask ⟨command, heard, .ask q next⟩ q).store = st := by rw [store_ask, hr]
      cases result with
      | error e =>
        refine ⟨_, .step hw (.refused hc rfl (by rw [hr])), hstore.trans ?_, clock_ask ..⟩
        simp only [Plan.run, hr]
      | ok a =>
        have hans : w.store.Answers q a := by
          unfold Store.Answers
          rw [hr]
        obtain ⟨w', hreach, hst, hclock⟩ := ih a (.step hw (.answered hc rfl hans)) _ rfl
        refine ⟨w', hreach, hst.trans ?_, hclock.trans (clock_ask ..)⟩
        show ((next a).run Store.backend (w.ask _ q).clock (w.ask _ q).store).state = _
        rw [hstore, clock_ask]
        simp only [Plan.run, hr]
  | clock next ih =>
    obtain ⟨w', hreach, hst, hclock⟩ := ih w.clock (.step hw (.stamped hc rfl)) _ rfl
    exact ⟨w', hreach, hst, hclock⟩
  | note n next ih =>
    obtain ⟨w', hreach, hst, hclock⟩ := ih (.step hw (.noted hc rfl)) _ rfl
    exact ⟨w', hreach, hst, hclock⟩

/-- A call that nobody comes between does to a reachable world what running it alone does. -/
theorem reach_run {w : World} (hw : w.Reach R) (c : Command) :
    ∃ w', World.Reach R w' ∧ w'.store = (c.plan.run Store.backend w.clock w.store).state ∧ w'.clock = w.clock :=
  reach_rest (.step hw (.begun c)) (show _ = [] ++ Call.start c :: w.calls from rfl)

/-- What calls leave of a store when one follows on the other. -/
def Store.after (t : Instant) : List Command → Store → Store
  | [], st => st
  | c :: cs, st => after t cs (c.plan.run Store.backend t st).state

theorem reach_after {w : World} (hw : w.Reach R) (cs : List Command) :
    ∃ w', World.Reach R w' ∧ w'.store = w.store.after w.clock cs := by
  induction cs generalizing w with
  | nil => exact ⟨w, hw, rfl⟩
  | cons c cs ih =>
    obtain ⟨w₁, hreach₁, hst₁, hclock₁⟩ := reach_run hw c
    obtain ⟨w₂, hreach₂, hst₂⟩ := ih hreach₁
    refine ⟨w₂, hreach₂, ?_⟩
    rw [hst₂, hst₁, hclock₁]
    rfl

/-! ## A place to begin -/

/-- Nine o'clock on the first of March 2025. -/
def morning : Instant := ⟨⟨2025, 3, 1, 9, 0, 0, 0⟩, by decide⟩

/-- A session of a course with a mentee, a mentor and a manager. -/
def school : Directory := ⟨[], [((1, 5), .mentee), ((2, 5), .mentor), ((3, 5), .manager)], [(7, .course 5)]⟩

theorem reach_school (R : Rules) : World.Reach R ⟨.memory ⟨school, .empty⟩, morning, [], [], []⟩ :=
  .start morning rfl

end Rollbook
