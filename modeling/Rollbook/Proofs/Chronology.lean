import Rollbook.Proofs.Atomic
import Rollbook.Proofs.Audit
/-
  Rollbook.Proofs.Chronology — logs are in the order of time.

  An event is stamped when its transition is applied, and not when it is stored. A slow
  client may hold an event of the morning until the evening, while others add to the log
  what happened at noon; and a call may read the clock long after it has loaded the
  record. If the clock never goes back, every stored log is in order all the same
  (`chronological_of_reach`).

  What carries it is that every record around is `Timely`, stale or not: its events are
  in order and none is later than now. A transition adds an event behind them that is
  not earlier than any. What a call has loaded was timely when it was loaded, and all
  that the call has heard since it has heard later (`Call.Punctual`). And an append puts
  the events of the record that it lets through in the place of the log, as a whole.
-/

namespace Rollbook

open Ledger Plan World

/-! ## Earlier and later -/

namespace Instant

theorem order_eq_compareLex : order =
    compareLex (compareOn fun i : Instant => i.year) (compareLex (compareOn fun i => i.month)
      (compareLex (compareOn fun i => i.day) (compareLex (compareOn fun i => i.hour)
        (compareLex (compareOn fun i => i.minute)
          (compareLex (compareOn fun i => i.second) (compareOn fun i => i.nano)))))) := rfl

instance : Std.TransCmp order := by
  rw [order_eq_compareLex]
  infer_instance

theorem le_refl (a : Instant) : a ≤ a := Std.ReflCmp.isLE_rfl

theorem le_trans {a b c : Instant} (h : a ≤ b) (h' : b ≤ c) : a ≤ c := Std.TransCmp.isLE_trans h h'

end Instant

/-- The events came one after the other, and the last one not later than now. -/
structure Timely (now : Instant) (log : List Event) : Prop where
  ordered : log.Pairwise fun a b => a.time ≤ b.time
  past : ∀ e ∈ log, e.time ≤ now

theorem timely_nil (now : Instant) : Timely now [] := ⟨.nil, fun e he => by cases he⟩

theorem timely_later {now later : Instant} {log : List Event} (h : Timely now log) (hle : now ≤ later) :
    Timely later log := ⟨h.ordered, fun e he => Instant.le_trans (h.past e he) hle⟩

/-- An event of now comes last. -/
theorem timely_concat {log : List Event} {e : Event} (h : Timely e.time log) : Timely e.time (log ++ [e]) := by
  refine ⟨List.pairwise_append.2 ⟨h.ordered, List.pairwise_singleton _ _, fun a ha b hb => ?_⟩, fun a ha => ?_⟩
  · rw [List.mem_singleton.1 hb]
    exact h.past a ha
  · rcases List.mem_append.1 ha with ha | ha
    · exact h.past a ha
    · rw [List.mem_singleton.1 ha]
      exact Instant.le_refl _

theorem time_of_writes {c : Command} {t : Instant} {e : Event} (h : c.Writes t e) : e.time = t := by
  cases c with
  | checkIn | checkOut | reject => rw [show e = _ from h]; rfl
  | request =>
    obtain ⟨current, grant, rfl⟩ := h
    rfl
  | approve =>
    obtain ⟨previous, new, reason, rfl⟩ := h
    rfl

/-! ## Calls on their way -/

/-- The clock has not gone back while the call was listening, and every record that it has found was timely
    when it was found. -/
structure Call.Punctual (now : Instant) (c : Call) : Prop where
  ordered : c.heard.Pairwise fun x y => x.clock ≤ y.clock
  past : ∀ x ∈ c.heard, x.clock ≤ now
  found : ∀ x ∈ c.heard, ∀ session member r, x.input = .answer (.find session member) (some r) →
    Timely x.clock r.events

theorem punctual_start (now : Instant) (c : Command) : (Call.start c).Punctual now :=
  ⟨.nil, (fun x hx => by cases hx), fun x hx => by cases hx⟩

theorem punctual_later {now later : Instant} {c : Call} (h : c.Punctual now) (hle : now ≤ later) :
    c.Punctual later := ⟨h.ordered, fun x hx => Instant.le_trans (h.past x hx) hle, h.found⟩

/-- What is heard now is heard last. -/
theorem punctual_hear {c : Call} {x : Heard} (h : c.Punctual x.clock)
    (hfound : ∀ session member r, x.input = .answer (.find session member) (some r) → Timely x.clock r.events)
    (rest : Plan Record) : (c.hear x rest).Punctual x.clock := by
  refine ⟨List.pairwise_append.2 ⟨h.ordered, List.pairwise_singleton _ _, fun y hy z hz => ?_⟩, ?_, ?_⟩
  · rw [List.mem_singleton.1 hz]
    exact h.past y hy
  · exact List.forall_mem_append.2 ⟨h.past, List.forall_mem_singleton.2 (Instant.le_refl _)⟩
  · exact List.forall_mem_append.2 ⟨h.found, List.forall_mem_singleton.2 hfound⟩

variable {R : Rules} {P : List Event → Prop} {w w' : World} {s : Shelf} {r : Record}

/-- What a call comes to append is timely: it was when it was loaded, and the clock was read after that. -/
theorem timely_of_asks {now : Instant} {ledger : List Record} {c : Call} (hs : c.Sound P ledger s)
    (hc : c.Punctual now) (ha : Asks c.command.plan c.inputs (.append r)) : Timely now r.events := by
  obtain ⟨found, is₁, is₂, his, -, ht⟩ := Command.asks_append ha
  obtain ⟨t, e, hread, hwrites, rfl⟩ := writes_of_transition ht
  obtain rfl := time_of_writes hwrites
  rw [← List.append_nil is₂] at his
  obtain ⟨before, x, looks, after, hheard, hx, hlooks⟩ := heard_of_inputs his
  obtain ⟨y, hy, hinput⟩ := List.mem_map.1 (hlooks ▸ hread)
  have hxin : x ∈ c.heard := by
    rw [hheard]
    exact List.mem_append_right _ List.mem_cons_self
  have hyin : y ∈ c.heard := by
    rw [hheard]
    exact List.mem_append_right _ (List.mem_cons_of_mem x (List.mem_append_left after hy))
  have hstamp : y.clock = e.time := by
    have hholds := hs.holds y hyin
    obtain ⟨input, st, clock⟩ := y
    cases hinput
    cases hholds
    rfl
  have hafter : x.clock ≤ y.clock := by
    have hordered := hc.ordered
    rw [hheard] at hordered
    exact (List.pairwise_cons.1 (List.pairwise_append.1 hordered).2.1).1 y (List.mem_append_left after hy)
  have hloaded : Timely x.clock (found.getD (.new c.command.session c.command.member)).events := by
    cases found with
    | none => exact timely_nil _
    | some r₀ => exact hc.found x hxin _ _ r₀ hx
  rw [hstamp] at hafter
  exact timely_later (timely_concat (timely_later hloaded hafter)) (hstamp ▸ hc.past y hyin)

/-! ## Worlds -/

/-- Everything around is in time: what is stored, what is held, and the calls. -/
structure World.Punctual (w : World) : Prop where
  stored : ∀ session member r, w.store.Answers (.find session member) (some r) → Timely w.clock r.events
  held : ∀ r ∈ w.held, Timely w.clock r.events
  calls : ∀ c ∈ w.calls, c.Punctual w.clock

theorem timely_of_offers (hi : Inv R P w s) (hp : w.Punctual) (ho : w.Offers r) : Timely w.clock r.events := by
  rcases ho with hr | ⟨c, hc, next, hn⟩
  · exact hp.held r hr
  · have hsound := hi.calls c hc
    exact timely_of_asks hsound (hp.calls c hc) ⟨next, hn ▸ hsound.leads⟩

/-! ### What a step posts -/

theorem eq_of_append {call : Option Call} {p : Posting} (h : (w.append r call).posted = w.posted ++ [p]) :
    p = ⟨r, call⟩ := by
  have hnone : w.posted ≠ w.posted ++ [p] := fun he => List.cons_ne_nil p [] (List.self_eq_append_right.1 he)
  unfold World.append at h
  dsimp only at h
  split at h
  · split at h
    · exact absurd h hnone
    · exact (List.cons.inj (List.append_cancel_left h)).1.symm
  · exact absurd h hnone

/-- Whatever a step posts was on offer. -/
theorem offers_of_step (h : w.Step R w') {p : Posting} (hposted : w'.posted = w.posted ++ [p]) :
    w.Offers p.record := by
  have hnone : w.posted ≠ w.posted ++ [p] := fun he => List.cons_ne_nil p [] (List.self_eq_append_right.1 he)
  have hask : ∀ {c : Call} {q : Query} {next : q.Answer → Plan Record}, c ∈ w.calls → c.rest = .ask q next →
      (w.ask c q).posted = w.posted ++ [p] → w.Offers p.record := by
    intro c q next hc hn hgrown
    rcases ask_cases w c q with ⟨r, rfl⟩ | hask
    · rw [eq_of_append hgrown]
      exact Or.inr ⟨c, hc, next, hn⟩
    · rw [hask] at hgrown
      exact absurd hgrown hnone
  cases h with
  | fresh | found | listed | changed | begun | stamped | noted | left | ticked | administered =>
    exact absurd hposted hnone
  | saved hd hr ha =>
    rw [eq_of_append hposted]
    exact Or.inl hr
  | turnedDown hd hr he =>
    rw [eq_of_append hposted]
    exact Or.inl hr
  | answered hc hn ha => exact hask (mem_calls hc) hn hposted
  | refused hc hn he => exact hask (mem_calls hc) hn hposted

/-! ### Every step keeps it -/

theorem clock_le_of_step (hR : R.steady = true) (h : w.Step R w') : w.clock ≤ w'.clock := by
  cases h with
  | ticked t ht => exact ht hR
  | answered | refused =>
    show w.clock ≤ (w.ask _ _).clock
    rw [clock_ask]
    exact Instant.le_refl _
  | _ => exact Instant.le_refl _

/-- A step stores the log of a record that was on offer, or none. -/
theorem stored_of_step (hi : Inv R (fun _ => True) w s) (hp : w.Punctual) (h : w.Step R w') {session : SessionId}
    {member : MemberId} (hr : w'.store.Answers (.find session member) (some r)) : Timely w.clock r.events := by
  rcases moves_of_step (kept_true R) hi h with ⟨-, hshown⟩ | ⟨p, hposted, hk, hv, -, hshown⟩
  · have hfind := (Store.answers_find hshown).1 hr
    exact hp.stored session member r ((Store.answers_find hi.shown).2 hfind)
  · have hfind := (Store.answers_find hshown).1 hr
    by_cases hkey : (session, member) = (p.record.session, p.record.member)
    · cases hkey
      rw [find_posted_self hi.balanced hk hv] at hfind
      cases hfind
      have htimely := timely_of_offers hi hp (offers_of_step h hposted)
      exact htimely
    · rw [find_posted_other hkey] at hfind
      exact hp.stored session member r ((Store.answers_find hi.shown).2 hfind)

theorem held_of_step (hi : Inv R (fun _ => True) w s) (hp : w.Punctual) (h : w.Step R w') :
    ∀ r ∈ w'.held, Timely w.clock r.events := by
  have hask : ∀ (c : Call) (q : Query), (w.ask c q).held = w.held := fun c q => by cases q <;> rfl
  cases h with
  | fresh => exact List.forall_mem_cons.2 ⟨timely_nil _, hp.held⟩
  | found hd hr => exact List.forall_mem_cons.2 ⟨hp.stored _ _ _ hr, hp.held⟩
  | listed hd hrs =>
    refine List.forall_mem_append.2 ⟨fun r hr => ?_, hp.held⟩
    obtain ⟨session, hfind⟩ := Store.find_of_findAll hi.shown hrs hr
    exact hp.stored session _ r ((Store.answers_find hi.shown).2 hfind)
  | changed hd hr hc ht =>
    refine List.forall_mem_cons.2 ⟨?_, hp.held⟩
    obtain ⟨t, e, hread, hwrites, rfl⟩ := writes_of_transition hc
    have htime : e.time = w.clock := (time_of_writes hwrites).trans (ht t hread)
    have hold := hp.held _ hr
    rw [← htime] at hold ⊢
    exact timely_concat hold
  | saved hd hr ha =>
    refine List.forall_mem_cons.2 ⟨?_, hp.held⟩
    unfold Store.Answers at ha
    have hold := hp.held _ hr
    rcases Store.append_cases hi.shown hi.balanced hi.ordered (hi.held _ hr).1 with
      ⟨-, -, st', happend, -⟩ | ⟨-, -, happend⟩ | ⟨e, notes, happend⟩
    · rw [happend] at ha
      cases ha
      exact hold
    · rw [happend] at ha
      cases ha
      exact hold
    · rw [happend] at ha
      cases ha
  | answered | refused =>
    show ∀ r ∈ (w.ask _ _).held, _
    rw [hask]
    exact hp.held
  | turnedDown | begun | stamped | noted | left | ticked | administered => exact hp.held

theorem calls_of_step (hp : w.Punctual) (h : w.Step R w') : ∀ c ∈ w'.calls, c.Punctual w.clock := by
  cases h with
  | begun c => exact List.forall_mem_cons.2 ⟨punctual_start _ c, hp.calls⟩
  | @answered before after c q next a hc hn ha =>
    refine forall_replaced hc hp.calls ?_
    refine punctual_hear (x := ⟨.answer q a, w.store, w.clock⟩) (hp.calls c (mem_calls hc)) ?_ (next a)
    intro session member r hin
    cases hin
    exact hp.stored session member r ha
  | @stamped before after c next hc hn =>
    refine forall_replaced hc hp.calls ?_
    refine punctual_hear (x := ⟨.time w.clock, w.store, w.clock⟩) (hp.calls c (mem_calls hc)) ?_ (next w.clock)
    intro session member r hin
    cases hin
  | @noted before after c n next hc hn =>
    have hold := hp.calls c (mem_calls hc)
    exact forall_replaced hc hp.calls ⟨hold.ordered, hold.past, hold.found⟩
  | refused hc hn he => exact forall_removed hc hp.calls
  | left hc => exact forall_removed hc hp.calls
  | fresh | found | listed | changed | saved | turnedDown | ticked | administered => exact hp.calls

theorem punctual_of_reach (hR : R.steady = true) (h : Reach R w) : w.Punctual := by
  induction h with
  | start t hst =>
    refine ⟨fun session member r hr => ?_, (fun r hr => by cases hr), fun c hc => by cases hc⟩
    cases (Store.answers_find (Store.shows_of_blank hst)).1 hr
  | step hw hs ih =>
    obtain ⟨s, hi⟩ := inv_of_reach (kept_true R) hw
    have hle := clock_le_of_step hR hs
    exact ⟨fun session member r hr => timely_later (stored_of_step hi ih hs hr) hle,
      fun r hr => timely_later (held_of_step hi ih hs r hr) hle,
      fun c hc => punctual_later (calls_of_step ih hs c hc) hle⟩

/-- If the clock never goes back, every stored log can be read and is in the order of time, whoever has added
    to it and however late. -/
theorem chronological_of_reach (hR : R.steady = true) (h : Reach R w) (session : SessionId) (member : MemberId) :
    ∃ found, w.store.Answers (.find session member) found ∧
      ∀ r, found = some r → r.events.Pairwise fun a b => a.time ≤ b.time := by
  obtain ⟨s, hi⟩ := inv_of_reach (kept_true R) h
  have hfind := Store.find_eq hi.shown session member
  refine ⟨s.find session member, hfind, fun r hr => ?_⟩
  rw [hr] at hfind
  exact ((punctual_of_reach hR h).stored session member r hfind).ordered

/-- Two clients check the same member out. The one who does it first is slow to store it, and is turned away. -/
theorem chronological_of_reach_slow : ∃ (w : World) (found slow : Record), Reach ⟨true, true⟩ w ∧
    w.store.Answers (.find 7 1) (some found) ∧ found.events.map Event.time = [dawn, morning] ∧
    (found.events.Pairwise fun a b => a.time ≤ b.time) ∧
    slow ∈ w.held ∧ slow.events.map Event.time = [dawn, dawn] ∧
    (w.store.backend (.append slow)).result = .error (.conflict 1 2) := by
  have hread : ∀ t t' : Instant, .time t' ∈ [Input.time t] → t' = t := by simp
  have hstart : World.Reach ⟨true, true⟩ ⟨.memory ⟨school, .empty⟩, dawn, [], [], []⟩ := .start dawn rfl
  have hfresh := World.Reach.step hstart (.fresh 7 1 rfl)
  have hin : Command.Transition (.new 7 1) [.time dawn] ((Record.new 7 1).add (.checkedIn dawn)) (.checkIn 7 1) :=
    ⟨dawn, rfl, rfl⟩
  have hentered := World.Reach.step hfresh (.changed rfl List.mem_cons_self hin (hread dawn))
  have hsaved := World.Reach.step hentered (.saved rfl List.mem_cons_self rfl)
  have hout : ∀ t, Command.Transition (((Record.new 7 1).add (.checkedIn dawn)).stored 1) [.time t]
      ((((Record.new 7 1).add (.checkedIn dawn)).stored 1).add (.checkedOut t)) (.checkOut 7 1) := fun t => ⟨t, rfl, rfl⟩
  have hslow := World.Reach.step hsaved (.changed rfl List.mem_cons_self (hout dawn) (hread dawn))
  have hlater := World.Reach.step hslow (.ticked morning fun _ => by decide)
  have hquick := World.Reach.step hlater
    (.changed rfl (List.mem_cons_of_mem _ List.mem_cons_self) (hout morning) (hread morning))
  have hstored := World.Reach.step hquick (.saved rfl List.mem_cons_self rfl)
  obtain ⟨found, hfound, hordered⟩ := chronological_of_reach rfl hstored 7 1
  have hlog := Except.ok.inj hfound
  exact ⟨_, _, _, hstored, rfl, rfl, hordered _ hlog.symm,
    List.mem_cons_of_mem _ (List.mem_cons_of_mem _ List.mem_cons_self), rfl, rfl⟩

end Rollbook
