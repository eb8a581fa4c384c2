import Rollbook.Proofs.Appends
/-
  Rollbook.Proofs.Returned — what is found is what came back.

  Whoever appends gets back the record as it was stored, and may rely on it. `Returned`
  follows a run and lists what came back from the appends that added events. In every
  reachable world the record of a session and a member is the last one on the list, in
  every field, or there is none (`found_of_returned`): nothing is lost on the way into
  the store and out of it again, and no other step touches it.

  What a step does to the logs is said once, in `moves_of_step`.
-/

namespace Rollbook

open Ledger Plan World

variable {R : Rules} {w w' : World} {s : Shelf}

/-! ## What a step does to the logs -/

/-- The logs stay as they are, or one record is posted to them. -/
def World.Moves (w w' : World) (s : Shelf) : Prop :=
  (w'.posted = w.posted ∧ w'.store.Shows s) ∨
    ∃ p : Posting, w'.posted = w.posted ++ [p] ∧ Known w.ledger s p.record ∧ s.found p.record = p.record.version ∧
      w.store.Answers (.append p.record) (p.record.stored (s.postedId p.record)) ∧
      w'.store.Shows (s.posted p.record)

theorem moves_append {P : List Event → Prop} (hi : Inv R P w s) {r : Record} (hk : Known w.ledger s r)
    (call : Option Call) : w.Moves (w.append r call) s := by
  rcases Store.append_cases hi.shown hi.balanced hi.ordered hk with
    ⟨hv, hu, st', happend, hs⟩ | ⟨-, hu, happend⟩ | ⟨e, notes, happend⟩
  · rw [append_post happend hu]
    exact Or.inr ⟨⟨r, call⟩, rfl, hk, hv, congrArg Reply.result happend, hs⟩
  · rw [append_rest happend fun _ _ => hu]
    exact Or.inl ⟨rfl, hi.shown⟩
  · rw [append_rest happend fun saved h => by cases h]
    exact Or.inl ⟨rfl, hi.shown⟩

theorem moves_ask {P : List Event → Prop} (hP : Kept R P) (hi : Inv R P w s) {c : Call} (hc : c ∈ w.calls) {q : Query}
    {next : q.Answer → Plan Record} (hn : c.rest = .ask q next) : w.Moves (w.ask c q) s := by
  have hsound := hi.calls c hc
  rcases ask_cases w c q with ⟨r, rfl⟩ | hask
  · exact moves_append hi (known_of_asks hP hsound ⟨next, hn ▸ hsound.leads⟩).1 (some c)
  · rw [hask]
    exact Or.inl ⟨rfl, hi.shown⟩

theorem moves_of_step {P : List Event → Prop} (hP : Kept R P) (hi : Inv R P w s) (h : w.Step R w') : w.Moves w' s := by
  cases h with
  | fresh | found | listed | changed | begun | stamped | noted | left | ticked => exact Or.inl ⟨rfl, hi.shown⟩
  | saved hd hr ha => exact moves_append hi (hi.held _ hr).1 none
  | turnedDown hd hr he => exact moves_append hi (hi.held _ hr).1 none
  | answered hc hn ha => exact moves_ask hP hi (mem_calls hc) hn
  | refused hc hn he => exact moves_ask hP hi (mem_calls hc) hn
  | administered hst => exact Or.inl ⟨rfl, Store.shows_of_sameLogs hst hi.shown⟩

/-! ## What came back -/

/-- A run has come to the world, and these records came back from the appends that added events, the first
    one first. -/
inductive World.Returned (R : Rules) : World → List Record → Prop
  | start {st : Store} (t : Instant) : st.Blank → Returned R ⟨st, t, [], [], []⟩ []
  | rest {w w' : World} {back : List Record} : Returned R w back → w.Step R w' → w'.posted = w.posted →
      Returned R w' back
  | posted {w w' : World} {back : List Record} {p : Posting} {saved : Record} : Returned R w back → w.Step R w' →
      w'.posted = w.posted ++ [p] → w.store.Answers (.append p.record) saved → Returned R w' (back ++ [saved])

theorem reach_of_returned {back : List Record} (h : w.Returned R back) : Reach R w := by
  induction h with
  | start t hst => exact .start t hst
  | rest _ hs _ ih => exact .step ih hs
  | posted _ hs _ _ ih => exact .step ih hs

/-- Every run has such a list. -/
theorem exists_returned (h : Reach R w) : ∃ back, w.Returned R back := by
  induction h with
  | start t hst => exact ⟨[], .start t hst⟩
  | step hw hs ih =>
    obtain ⟨back, hback⟩ := ih
    obtain ⟨s, hi⟩ := inv_of_reach (kept_true R) hw
    rcases moves_of_step (kept_true R) hi hs with ⟨hposted, -⟩ | ⟨p, hposted, -, -, hsaved, -⟩
    · exact ⟨back, .rest hback hs hposted⟩
    · exact ⟨_, .posted hback hs hposted hsaved⟩

/-- A record with the version of its log and nothing to add to it is the one that is found. -/
theorem eq_of_idle {r k : Record} (hb : s.Balanced w.ledger) (hk : Known w.ledger s r) (hv : s.found r = r.version)
    (hu : r.uncommitted = []) (hfind : s.find r.session r.member = some k) : r = k := by
  obtain ⟨k₀, hk₀, rfl⟩ := Option.map_eq_some_iff.1 hfind
  obtain ⟨hne, hversion, hlog⟩ := hb.kept _ _ k₀ hk₀
  have hevents : r.events = k₀.events := by
    rw [hlog, ← Shelf.events_of_found hk hb hv, hu, List.append_nil]
  have hpersisted : r.persisted = r.events.length := Nat.le_antisymm hk.persisted (List.drop_eq_nil_iff.1 hu)
  have hsaved : r.version = k₀.version := hv.symm.trans (Shelf.found_of_stored hk₀)
  have h0 : r.version ≠ 0 := by
    rw [hsaved, hversion]
    exact Int.ofNat_ne_zero.2 (fun h => hne (List.length_eq_zero_iff.1 h))
  obtain ⟨k₁, hk₁, hid⟩ := id_of_saved hk hb h0
  obtain rfl : k₀ = k₁ := Option.some.inj (hk₀.symm.trans hk₁)
  have hstanding := hk.standing
  obtain ⟨id, session, member, events, version, standing, persisted⟩ := r
  dsimp only at *
  subst hid hsaved hevents hpersisted hstanding
  rfl

/-- The record that is found is the one that came back last. -/
theorem found_of_returned {back : List Record} (h : w.Returned R back) (session : SessionId) (member : MemberId) :
    w.store.Answers (.find session member) (of back session member).getLast? := by
  induction h with
  | start t hst => exact (Store.answers_find (Store.shows_of_blank hst)).2 rfl
  | @rest w w' back hback hs hposted ih =>
    obtain ⟨s, hi⟩ := inv_of_reach (kept_true R) (reach_of_returned hback)
    rcases moves_of_step (kept_true R) hi hs with ⟨-, hshown⟩ | ⟨p, hgrown, -⟩
    · exact (Store.answers_find hshown).2 ((Store.answers_find hi.shown).1 ih)
    · rw [hposted] at hgrown
      exact absurd (List.self_eq_append_right.1 hgrown) (List.cons_ne_nil p [])
  | @posted w w' back p saved hback hs hposted hsaved ih =>
    obtain ⟨s, hi⟩ := inv_of_reach (kept_true R) (reach_of_returned hback)
    rcases moves_of_step (kept_true R) hi hs with ⟨hsame, -⟩ | ⟨p', hgrown, hk, hv, hsaved', hshown⟩
    · rw [hposted] at hsame
      exact absurd (List.append_right_eq_self.1 hsame) (List.cons_ne_nil p [])
    · obtain rfl : p = p' := List.cons.inj (List.append_cancel_left (hposted.symm.trans hgrown)) |>.1
      obtain rfl : saved = p.record.stored (s.postedId p.record) := Except.ok.inj (hsaved.symm.trans hsaved')
      refine (Store.answers_find hshown).2 ?_
      by_cases hkey : (session, member) = (p.record.session, p.record.member)
      · cases hkey
        have hof := of_append_self back (p.record.stored (s.postedId p.record))
        rw [find_posted_self hi.balanced hk hv]
        exact (congrArg List.getLast? hof).trans List.getLast?_concat |>.symm
      · have hof := of_append_other back (r := p.record.stored (s.postedId p.record)) hkey
        rw [find_posted_other hkey, hof]
        exact (Store.answers_find hi.shown).1 ih

end Rollbook
