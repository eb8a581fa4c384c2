import Mathlib.Data.List.Induction
import Rollbook.Record
/-
  Rollbook.Proofs.Log — lawful logs.

  Every transition looks at the end of a log before it adds an event. `Event.Follows`
  is what it has seen there, per kind of event, and a log is lawful when each of its
  events follows those before it (`Lawful`).

  A lawful log alternates twice over: its check-ins with its check-outs, and its
  requests with what resolves them (`wellFormed_of_lawful`). So at most one request is
  unresolved, and reading a log from its end finds that request exactly when there is
  one.
-/

namespace Rollbook

/-! ## What an event follows -/

/-- What the transition that adds the event has seen of the log so far. -/
def Event.Follows (log : List Event) : Event → Prop
  | .checkedIn _ => openReversed log.reverse = false
  | .checkedOut _ => openReversed log.reverse = true
  | .requested q =>
    Correction.ofLog log = .idle ∧ q.current = foldStatus log ∧ q.wanted ≠ q.current ∧ 1 ≤ q.grant.rank
  | .corrected _ previous new _ _ =>
    ∃ q, Correction.ofLog log = .pending q ∧ previous = foldStatus log ∧ new = q.wanted
  | .rejected .. => ∃ q, Correction.ofLog log = .pending q

/-- Every event of the log follows the events before it. -/
def Lawful (log : List Event) : Prop := ∀ before e after, log = before ++ e :: after → e.Follows before

theorem lawful_nil : Lawful [] := by
  intro before e after h
  cases before <;> cases h

theorem lawful_concat {log : List Event} {e : Event} : Lawful (log ++ [e]) ↔ Lawful log ∧ e.Follows log := by
  constructor
  · intro h
    refine ⟨fun before e' after he => h before e' (after ++ [e]) ?_, h log e [] rfl⟩
    rw [he, List.append_assoc, List.cons_append]
  · rintro ⟨hl, he⟩ before e' after h
    rcases List.eq_nil_or_concat after with rfl | ⟨after, x, rfl⟩
    · obtain ⟨rfl, hx⟩ := List.append_inj' h rfl
      cases hx
      exact he
    · have hs : log ++ [e] = (before ++ e' :: after) ++ [x] := by
        rw [h, List.concat_eq_append, List.append_assoc, List.cons_append]
      exact hl before e' after (List.append_inj' hs rfl).1

/-- A lawful log is lawful as far as one looks. -/
theorem lawful_of_prefix {log log' : List Event} (h : Lawful log') (hp : log <+: log') : Lawful log := by
  obtain ⟨rest, rfl⟩ := hp
  intro before e after he
  refine h before e (after ++ rest) ?_
  rw [he, List.append_assoc, List.cons_append]

/-! ## Reading the end of a longer log -/

namespace Event

/-- A check-in or a check-out. -/
def presence : Event → Option Bool
  | .checkedIn _ => some true
  | .checkedOut _ => some false
  | _ => none

/-- A request or what resolves one. -/
def filing : Event → Option Bool
  | .requested _ => some true
  | .corrected .. | .rejected .. => some false
  | _ => none

def request? : Event → Option Request
  | .requested q => some q
  | _ => none

end Event

theorem open_concat (log : List Event) (e : Event) :
    openReversed (log ++ [e]).reverse = e.presence.getD (openReversed log.reverse) := by
  rw [List.reverse_append]
  cases e <;> rfl

theorem correction_concat (log : List Event) (e : Event) :
    Correction.ofLog (log ++ [e]) =
      match e.filing with
      | some true => (e.request?.map Correction.pending).getD .idle
      | some false => .idle
      | none => Correction.ofLog log := by
  unfold Correction.ofLog
  rw [List.reverse_append]
  cases e <;> rfl

/-! ## Alternation -/

/-- The values change each time, beginning with `first`. -/
def Alternates (first : Bool) : List Bool → Prop
  | [] => True
  | b :: bs => b = first ∧ Alternates (!first) bs

theorem alternates_concat {first b : Bool} {bs : List Bool} :
    Alternates first (bs ++ [b]) ↔
      Alternates first bs ∧ b = if bs.length % 2 = 0 then first else !first := by
  induction bs generalizing first with
  | nil => simp [Alternates]
  | cons c cs ih =>
    rw [List.cons_append, Alternates, ih, Alternates, and_assoc]
    have hlen : (c :: cs).length = cs.length + 1 := rfl
    by_cases h : cs.length % 2 = 0
    · have h' : (cs.length + 1) % 2 ≠ 0 := by omega
      rw [hlen, if_pos h, if_neg h']
    · have h' : (cs.length + 1) % 2 = 0 := by omega
      rw [hlen, if_neg h, if_pos h', Bool.not_not]

/-- Of alternating values that begin with `true`, one more is `true` if their number is odd. -/
theorem count_of_alternates {bs : List Bool} (h : Alternates true bs) :
    bs.count true = bs.count false + bs.length % 2 := by
  induction bs using List.reverseRecOn with
  | nil => rfl
  | append_singleton bs b ih =>
    obtain ⟨hbs, hb⟩ := alternates_concat.1 h
    have := ih hbs
    by_cases hl : bs.length % 2 = 0
    · rw [if_pos hl] at hb
      subst hb
      simp; omega
    · rw [if_neg hl] at hb
      subst hb
      simp; omega

theorem filterMap_concat {α β : Type} (f : α → Option β) (xs : List α) (x : α) :
    (xs ++ [x]).filterMap f = xs.filterMap f ++ (f x).toList := by
  rw [List.filterMap_append]
  cases h : f x <;> simp [h]

/-- Events that switch something on and off alternate, if each of them may only come while it is the
    other way; it is on after an odd number of them. -/
theorem alternates_of_switch {f : Event → Option Bool} {on : List Event → Bool} (hnil : on [] = false)
    (hstep : ∀ log e, on (log ++ [e]) = (f e).getD (on log))
    (hturn : ∀ log e b, e.Follows log → f e = some b → b = !on log) {log : List Event} (h : Lawful log) :
    Alternates true (log.filterMap f) ∧ (on log = true ↔ (log.filterMap f).length % 2 = 1) := by
  induction log using List.reverseRecOn with
  | nil =>
    refine ⟨trivial, ?_⟩
    rw [hnil]
    exact ⟨(fun hon => by cases hon), (fun hlen => by cases hlen)⟩
  | append_singleton log e ih =>
    obtain ⟨hl, he⟩ := lawful_concat.1 h
    obtain ⟨ha, ho⟩ := ih hl
    rw [hstep, filterMap_concat]
    cases hf : f e with
    | none =>
      rw [Option.toList_none, List.append_nil]
      exact ⟨ha, ho⟩
    | some b =>
      have hb := hturn log e b he hf
      rw [Option.toList_some, Option.getD_some, List.length_append, List.length_singleton, hb]
      by_cases hon : on log = true
      · have hodd := ho.1 hon
        rw [hon]
        refine ⟨alternates_concat.2 ⟨ha, (if_neg (by omega)).symm⟩, ?_⟩
        exact ⟨fun h => absurd h Bool.false_ne_true, fun hlen => absurd hlen (by omega)⟩
      · have heven : (log.filterMap f).length % 2 = 0 := by
          rw [ho] at hon
          omega
        rw [Bool.eq_false_iff.2 hon]
        refine ⟨alternates_concat.2 ⟨ha, (if_pos heven).symm⟩, ?_⟩
        exact ⟨fun _ => by omega, fun _ => rfl⟩

/-- A check-in is open after an odd number of check-ins and check-outs. -/
theorem presence_alternates {log : List Event} (h : Lawful log) :
    Alternates true (log.filterMap Event.presence) ∧
      (openReversed log.reverse = true ↔ (log.filterMap Event.presence).length % 2 = 1) := by
  refine @alternates_of_switch _ (fun log => openReversed log.reverse) rfl open_concat ?_ _ h
  intro log e b he hb
  cases e with
  | checkedIn | checkedOut =>
    cases hb
    rw [show openReversed log.reverse = _ from he]
    rfl
  | requested | corrected | rejected => cases hb

/-- A request is pending after an odd number of requests and resolutions. -/
theorem filing_alternates {log : List Event} (h : Lawful log) :
    Alternates true (log.filterMap Event.filing) ∧
      ((!(Correction.ofLog log).isIdle) = true ↔ (log.filterMap Event.filing).length % 2 = 1) := by
  refine @alternates_of_switch _ (fun log => !(Correction.ofLog log).isIdle) rfl ?_ ?_ _ h
  · intro log e
    rw [correction_concat]
    cases e <;> rfl
  · intro log e b he hb
    cases e with
    | checkedIn | checkedOut => cases hb
    | requested q =>
      cases hb
      rw [he.1]
      rfl
    | corrected =>
      cases hb
      obtain ⟨q, hq, -⟩ := he
      rw [hq]
      rfl
    | rejected =>
      cases hb
      obtain ⟨q, hq⟩ := he
      rw [hq]
      rfl

/-- The request that is pending is the last one of the log. -/
theorem last_request_of_pending {log : List Event} {q : Request} (h : Correction.ofLog log = .pending q) :
    (log.filterMap Event.request?).getLast? = some q := by
  induction log using List.reverseRecOn with
  | nil => cases h
  | append_singleton log e ih =>
    rw [correction_concat] at h
    rw [List.filterMap_append]
    cases e with
    | checkedIn | checkedOut => simpa [Event.request?] using ih h
    | requested q' =>
      cases h
      simp [Event.request?]
    | corrected | rejected => cases h

/-! ## Well-formed logs -/

/-- The shape of a log that is kept: it begins with a check-in, check-ins and check-outs take
    turns, requests and resolutions take turns, and what is read off its end as pending is its last
    request, exactly when requests outnumber resolutions. -/
structure WellFormed (log : List Event) : Prop where
  begins : ∃ t rest, log = .checkedIn t :: rest
  presence : Alternates true (log.filterMap Event.presence)
  filing : Alternates true (log.filterMap Event.filing)
  unresolved : (log.filterMap Event.filing).count true ≤ (log.filterMap Event.filing).count false + 1
  pending : (log.filterMap Event.filing).count false < (log.filterMap Event.filing).count true ↔
    ∃ q, Correction.ofLog log = .pending q ∧ (log.filterMap Event.request?).getLast? = some q

theorem wellFormed_of_lawful {log : List Event} (h : Lawful log)
    (hb : ∃ t rest, log = .checkedIn t :: rest) : WellFormed log := by
  obtain ⟨hf, hi⟩ := filing_alternates h
  have hc := count_of_alternates hf
  refine ⟨hb, (presence_alternates h).1, hf, by omega, ?_⟩
  cases hs : Correction.ofLog log with
  | idle =>
    have heven : ¬ (log.filterMap Event.filing).length % 2 = 1 := by
      rw [← hi, hs]
      exact Bool.false_ne_true
    constructor
    · intro hlt
      omega
    · rintro ⟨q, hq, -⟩
      cases hq
  | pending q =>
    have hodd : (log.filterMap Event.filing).length % 2 = 1 := by
      rw [← hi, hs]
      rfl
    constructor
    · intro _
      exact ⟨q, rfl, last_request_of_pending hs⟩
    · intro _
      omega

end Rollbook
