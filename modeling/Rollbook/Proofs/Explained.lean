import Mathlib.Data.List.DropRight
import Rollbook.Proofs.Approval
import Rollbook.Proofs.Atomic
/-
  Rollbook.Proofs.Explained — every reason that is kept can be used.

  A reason passes two checks in two places. A call measures the text as it was given,
  before it loads anything, and the transition trims it and refuses it if nothing is
  left. Trimming makes no text longer, so what is kept satisfies both.

  An approval need not give a reason. It then takes over the one of the request, which is
  read off the log and checked by nobody again. That one was kept before it, so the
  reasons of a log are usable by induction on the log (`usable_of_explains`), and each
  approval shows its reviewer's own reason or that of the request it resolves
  (`explained_of_reach`).
-/

namespace Rollbook

open Ledger Plan World

/-! ## Trimmed texts -/

namespace Text

/-- The text neither begins nor ends with a blank. -/
structure Bare (s : String) : Prop where
  start : ∀ c, s.toList.head? = some c → isBlank c = false
  ending : ∀ c, s.toList.getLast? = some c → isBlank c = false

theorem toList_trim (s : String) : (trim s).toList = (dropBlanks s.toList).rdropWhile isBlank := String.toList_ofList

/-- Trimming takes blanks off both ends and nothing else. -/
theorem exists_trim (s : String) : ∃ front back, s.toList = front ++ (trim s).toList ++ back ∧
    (∀ c ∈ front, isBlank c = true) ∧ ∀ c ∈ back, isBlank c = true := by
  refine ⟨s.toList.takeWhile isBlank, (dropBlanks s.toList).rtakeWhile isBlank, ?_,
    fun c hc => List.mem_takeWhile_imp hc, fun c hc => List.mem_rtakeWhile_imp hc⟩
  rw [toList_trim, List.append_assoc, List.rdropWhile_append_rtakeWhile]
  exact List.takeWhile_append_dropWhile.symm

theorem bare_trim (s : String) : Bare (trim s) := by
  refine ⟨fun c hc => ?_, fun c hc => ?_⟩
  · -- what is left begins where the blanks in front have ended
    rw [toList_trim] at hc
    obtain ⟨back, hback⟩ := List.rdropWhile_prefix isBlank (dropBlanks s.toList)
    have hstart := List.head?_dropWhile_not isBlank s.toList
    have hhead : (s.toList.dropWhile isBlank).head? = some c := by
      show (dropBlanks s.toList).head? = some c
      rw [← hback, List.head?_append, hc]
      rfl
    rw [hhead] at hstart
    exact hstart
  · rw [toList_trim] at hc
    obtain ⟨hne, rfl⟩ := List.mem_getLast?_eq_getLast hc
    exact Bool.eq_false_iff.2 (List.rdropWhile_last_not isBlank _ hne)

theorem length_trim_le (s : String) : (trim s).length ≤ s.length := by
  obtain ⟨front, back, hs, -, -⟩ := exists_trim s
  have hlen := congrArg List.length hs
  rw [List.length_append, List.length_append, String.length_toList, String.length_toList] at hlen
  omega

theorem trim_eq_empty {s : String} : trim s = "" ↔ allBlank s = true := by
  unfold allBlank
  rw [← String.toList_eq_nil_iff, List.all_eq_true]
  constructor
  · intro hnil
    obtain ⟨front, back, hs, hfront, hback⟩ := exists_trim s
    rw [hs, hnil, List.append_nil]
    exact List.forall_mem_append.2 ⟨hfront, hback⟩
  · intro hblank
    rw [toList_trim, dropBlanks, List.dropWhile_eq_nil_iff.2 hblank]
    rfl

end Text

/-! ## Usable reasons -/

/-- A reason that says something and can be shown as it stands. -/
structure Usable (text : String) : Prop extends Text.Bare text where
  nonempty : text ≠ ""
  short : text.length ≤ 1000

theorem usable_trim {text : String} (hblank : Text.allBlank text = false) (hshort : text.length ≤ longestReason) :
    Usable (Text.trim text) := by
  refine ⟨Text.bare_trim text, fun hempty => ?_, Nat.le_trans (Text.length_trim_le text) hshort⟩
  rw [Text.trim_eq_empty, hblank] at hempty
  cases hempty

/-- The reason that an event carries. -/
def Event.reason? : Event → Option String
  | .requested q => some q.reason
  | .corrected _ _ _ reason _ | .rejected _ reason _ => some reason
  | .checkedIn _ | .checkedOut _ => none

/-- The reason that is given with a call. -/
def Command.reason? : Command → Option String
  | .request _ _ _ _ reason | .reject _ _ _ reason => some reason
  | .approve _ _ _ reason => reason
  | .checkIn .. | .checkOut .. => none

/-! ### The measured text -/

theorem eq_nil_of_require {problems : List Problem} {is : List Input} {u : Unit}
    (h : Yields (Service.require problems) is u) : problems = [] := by
  unfold Service.require at h
  split at h
  · rename_i hempty
    exact List.isEmpty_iff.1 hempty
  · exact absurd h not_yields_fail

theorem short_of_requireShort {field what text : String} (h : requireShort field what text = []) :
    text.length ≤ longestReason := by
  unfold requireShort at h
  split at h
  · assumption
  · cases h

/-- A call that gets as far as a question has had its reason measured. -/
theorem short_of_asks {c : Command} {is : List Input} {q : Query} (h : Asks c.plan is q) {text : String}
    (htext : c.reason? = some text) : text.length ≤ longestReason := by
  have hproblems : ∀ {problems : List Problem} {rest : Unit → Plan Record},
      Asks (Service.require problems >>= rest) is q → problems = [] := by
    intro problems rest hasks
    rcases asks_bind.1 hasks with hasks | ⟨u, is₁, is₂, -, hrequire, -⟩
    · exact absurd hasks Service.not_asks_require
    · exact eq_nil_of_require hrequire
  cases c with
  | checkIn session member => cases htext
  | checkOut session member => cases htext
  | request actor session member wanted reason =>
    cases htext
    exact short_of_requireShort (List.append_eq_nil_iff.1 (hproblems h)).2
  | approve actor session member reason =>
    obtain rfl : reason = some text := htext
    exact short_of_requireShort (List.append_eq_nil_iff.1 (hproblems h)).2
  | reject actor session member reason =>
    cases htext
    exact short_of_requireShort (List.append_eq_nil_iff.1 (hproblems h)).2

/-! ### Where a reason comes from -/

/-- What a call makes of its reason, behind the events `before`: the text that is given with it, trimmed, and
    where an approval gives none the reason of the request that it resolves. -/
inductive Command.Explains (before : List Event) (c : Command) : String → Prop
  | own {text : String} : c.reason? = some text → Text.allBlank text = false → Explains before c (Text.trim text)
  | taken {q : Request} : (∀ text, c.reason? = some text → Text.allBlank text = true) →
      Correction.ofLog before = .pending q → Explains before c q.reason

theorem allBlank_of_isEmpty {text : String} (h : (Text.trim text).isEmpty = false) : Text.allBlank text = false := by
  refine Bool.eq_false_iff.2 fun hblank => ?_
  rw [← Text.trim_eq_empty, ← String.isEmpty_iff, h] at hblank
  cases hblank

theorem explains_approval {before : List Event} {actor : MemberId} {session : SessionId} {member : MemberId}
    {reason : Option String} {q : Request} (h : Correction.ofLog before = .pending q) :
    Command.Explains before (.approve actor session member reason) (Correction.approvalReason reason q) := by
  cases reason with
  | none => exact .taken (fun text htext => by cases htext) h
  | some text =>
    show Command.Explains before _ (if (Text.trim text).isEmpty then q.reason else Text.trim text)
    split
    · rename_i hempty
      refine .taken (fun text' htext => ?_) h
      cases htext
      exact Text.trim_eq_empty.1 (String.isEmpty_iff.1 hempty)
    · rename_i hsaid
      exact .own rfl (allBlank_of_isEmpty (Bool.eq_false_iff.2 hsaid))

/-- The reason of the event that a call adds. -/
theorem explains_of_adds {c : Call} {r₀ r : Record} {is : List Input} {e : Event} (h : c.Adds r₀ is e r)
    {text : String} (htext : e.reason? = some text) : c.command.Explains r₀.events text := by
  have hmoved := h.moved
  have hadded := h.added
  obtain ⟨command, heard, rest⟩ := c
  cases command with
  | checkIn session member =>
    obtain ⟨t, -, hmove⟩ := hmoved
    obtain ⟨-, rfl⟩ := eq_add_of_checkIn hmove
    rw [← add_inj hadded] at htext
    cases htext
  | checkOut session member =>
    obtain ⟨t, -, hmove⟩ := hmoved
    obtain ⟨-, rfl⟩ := eq_add_of_checkOut hmove
    rw [← add_inj hadded] at htext
    cases htext
  | request actor session member wanted reason =>
    obtain ⟨grant, is₁, t, -, -, hsaid, -, -, rfl⟩ := Correction.yields_request hmoved
    rw [← add_inj hadded] at htext
    cases htext
    exact .own rfl (allBlank_of_isEmpty hsaid)
  | approve actor session member reason =>
    obtain ⟨q, looks, t, -, hpending, -, rfl⟩ := Correction.yields_approve hmoved
    rw [← add_inj hadded] at htext
    cases htext
    exact explains_approval hpending
  | reject actor session member reason =>
    obtain ⟨q, looks, t, -, -, -, hsaid, rfl⟩ := Correction.yields_reject hmoved
    rw [← add_inj hadded] at htext
    cases htext
    exact .own rfl (allBlank_of_isEmpty hsaid)

/-- An approval is written by a call of its reviewer, who approves. -/
theorem approve_of_writes {c : Command} {t t' : Instant} {previous new : Status} {text : String} {reviewer : MemberId}
    (h : c.Writes t (.corrected t' previous new text reviewer)) :
    ∃ given, c = .approve reviewer c.session c.member given := by
  cases c with
  | checkIn | checkOut | reject => cases h
  | request =>
    obtain ⟨current, grant, he⟩ := h
    cases he
  | approve actor session member given =>
    obtain ⟨previous', new', text', he⟩ := h
    cases he
    exact ⟨given, rfl⟩

/-! ## Stored logs -/

/-- Where every reason comes from a text that was measured, all of them are usable: what an approval takes over
    stands in the log before it. -/
theorem usable_of_explains {log : List Event}
    (h : ∀ before e after text, log = before ++ e :: after → e.reason? = some text →
      ∃ c : Command, c.Explains before text ∧ ∀ own, c.reason? = some own → own.length ≤ longestReason) :
    ∀ e ∈ log, ∀ text, e.reason? = some text → Usable text := by
  induction log using List.reverseRecOn with
  | nil => exact fun e he => nomatch he
  | append_singleton log last ih =>
    have hearlier : ∀ e ∈ log, ∀ text, e.reason? = some text → Usable text := by
      refine ih fun before e after text hlog => h before e (after ++ [last]) text ?_
      rw [hlog, List.append_assoc, List.cons_append]
    refine List.forall_mem_append.2 ⟨hearlier, List.forall_mem_singleton.2 fun text htext => ?_⟩
    obtain ⟨c, hexplains, hshort⟩ := h log last [] text rfl htext
    cases hexplains with
    | own hgiven hsaid => exact usable_trim hsaid (hshort _ hgiven)
    | @taken q _ hpending =>
      obtain ⟨earlier, since, rfl, -⟩ := exists_since_of_pending hpending
      exact hearlier (.requested q) (by simp) q.reason rfl

/-- All reasons of the log are usable, and each approval shows its reviewer's own reason, trimmed, unless that was
    missing or blank, and then the reason of the request that it resolves. -/
structure Explained (w : World) (session : SessionId) (member : MemberId) (log : List Event) : Prop where
  usable : ∀ e ∈ log, ∀ text, e.reason? = some text → Usable text
  granted : ∀ before t previous new text reviewer after,
    log = before ++ .corrected t previous new text reviewer :: after →
    ∃ given q, (∃ p ∈ w.posted, ∃ c, p.call = some c ∧ c.command = .approve reviewer session member given ∧
        p.record.session = session ∧ p.record.member = member ∧
        p.record.events = before ++ [.corrected t previous new text reviewer]) ∧
      (before.filterMap Event.request?).getLast? = some q ∧ Correction.ofLog before = .pending q ∧
      ((∃ own, given = some own ∧ Text.allBlank own = false ∧ text = Text.trim own) ∨
        ((∀ own, given = some own → Text.allBlank own = true) ∧ text = q.reason))

variable {R : Rules} {w : World}

/-- Every stored log can be read, and its reasons are usable and come from where they should. -/
theorem explained_of_reach (hR : R.desk = false) (h : Reach R w) (session : SessionId) (member : MemberId) :
    ∃ found, w.store.Answers (.find session member) found ∧
      ∀ r, found = some r → Explained w session member r.events := by
  obtain ⟨s, hi⟩ := inv_of_reach (kept_lawful R) h
  refine ⟨s.find session member, Store.find_eq hi.shown session member, fun r hr => ?_⟩
  obtain ⟨k, hk, rfl⟩ := Option.map_eq_some_iff.1 hr
  have hstored : k.events = log (of w.ledger session member) := (hi.balanced.kept _ _ k hk).2.2
  refine ⟨usable_of_explains fun before e after text hlog htext => ?_, ?_⟩
  · obtain ⟨p, hp, -, -, -, c, r₀, is, hc, hholds, hadds, rfl⟩ := exists_posting hR hi (hstored.symm.trans hlog)
    obtain ⟨hasks, -⟩ := (hi.postings p hp).asks c hc
    exact ⟨c.command, explains_of_adds hadds htext, fun own => short_of_asks hasks⟩
  · intro before t previous new text reviewer after hlog
    obtain ⟨p, hp, hsession, hmember, hevents, c, r₀, is, hc, -, hadds, rfl⟩ :=
      exists_posting hR hi (hstored.symm.trans hlog)
    obtain ⟨clock, e, -, hwrites, hadded⟩ := writes_of_transition hadds.moved
    obtain rfl := add_inj (hadded.symm.trans hadds.added)
    obtain ⟨given, hcommand⟩ := approve_of_writes hwrites
    have hkey : c.command.session = session ∧ c.command.member = member := by
      rw [← hadds.session, ← hadds.member, ← hsession, ← hmember, hadds.added]
      exact ⟨rfl, rfl⟩
    rw [hkey.1, hkey.2] at hcommand
    obtain ⟨q, hpending, -⟩ := hi.logs _ _ k hk _ _ _ hlog
    have hposted : ∃ p ∈ w.posted, ∃ c, p.call = some c ∧ c.command = .approve reviewer session member given ∧
        p.record.session = session ∧ p.record.member = member ∧
        p.record.events = r₀.events ++ [.corrected t previous new text reviewer] :=
      ⟨p, hp, c, hc, hcommand, hsession, hmember, hevents⟩
    refine ⟨given, q, hposted, last_request_of_pending hpending, hpending, ?_⟩
    have hexplains : c.command.Explains r₀.events text := explains_of_adds hadds rfl
    rw [hcommand] at hexplains
    cases hexplains with
    | own hgiven hsaid => exact Or.inl ⟨_, hgiven, hsaid, rfl⟩
    | @taken q' hblank hpending' =>
      cases hpending.symm.trans hpending'
      exact Or.inr ⟨hblank, rfl⟩

/-- Reasons that are given with blanks around them. The first approval has nothing but blanks to say, the second one
    has a reason of its own. -/
theorem explained_of_reach_padded : ∃ (w : World) (r : Record), Reach ⟨false, false⟩ w ∧
    w.store.Answers (.find 7 1) (some r) ∧
    r.events.filterMap Event.reason? = ["a bus", "a bus", "gone", "no", "gone", "seen"] ∧ Explained w 7 1 r.events := by
  obtain ⟨w, hreach, hst⟩ := reach_after (reach_school ⟨false, false⟩)
    [.checkIn 7 1, .request 2 7 1 .late "\u3000a bus\t", .approve 3 7 1 (some "\u2028 "), .request 2 7 1 .absent " gone",
      .reject 3 7 1 "no\n", .request 2 7 1 .absent "gone ", .approve 3 7 1 (some " seen")]
  obtain ⟨found, hfound, hexplained⟩ := explained_of_reach rfl hreach 7 1
  have hlog : w.store.Answers (.find 7 1) (some (.rehydrate 1 7 1 7
      [.checkedIn morning, .requested ⟨morning, .present, .late, "a bus", 2, ⟨.course, 1⟩⟩,
        .corrected morning .present .late "a bus" 3, .requested ⟨morning, .late, .absent, "gone", 2, ⟨.course, 1⟩⟩,
        .rejected morning "no" 3, .requested ⟨morning, .late, .absent, "gone", 2, ⟨.course, 1⟩⟩,
        .corrected morning .late .absent "seen" 3])) := by
    rw [hst]
    rfl
  have hsame := Except.ok.inj (hfound.symm.trans hlog)
  exact ⟨w, _, hreach, hlog, rfl, hexplained _ hsame⟩

end Rollbook
