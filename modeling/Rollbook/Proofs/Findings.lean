import Rollbook.Proofs.Rolls
import Rollbook.Proofs.Utf8
/-
  Rollbook.Proofs.Findings — what is said about bad fields does not depend on an order.

  What is found wrong is gathered by field: one after the other is added to what was said
  of its field before, and in the end the fields are visited in an order that nobody
  promises. All that is relied on is that every field is there once, with all that was
  said of it (`Holds`); adding one after the other does that (`holds_ofProblems`).

  Behind the fields there are the same texts then, and they are sorted before they are
  joined. Texts sort by their bytes, and two of them that do not differ in these are the
  same, so the sorted texts are the same whatever came first (`orderless`).
-/

namespace Rollbook

namespace Text

/-! ## Sorting -/

theorem sorted_perm (texts : List String) : (sorted texts).Perm texts := List.mergeSort_perm texts _

theorem pairwise_sorted (texts : List String) : (sorted texts).Pairwise (· ≤ ·) := by
  let before (a b : String) : Bool := decide (a ≤ b)
  have htrans : ∀ a b c, before a b = true → before b c = true → before a c = true := fun a b c hab hbc =>
    decide_eq_true (String.le_trans (of_decide_eq_true hab) (of_decide_eq_true hbc))
  have htotal : ∀ a b, (before a b || before b a) = true := by
    intro a b
    simpa [before] using String.le_total a b
  exact (List.pairwise_mergeSort htrans htotal texts).imp of_decide_eq_true

/-- The texts are in the order of their bytes. -/
def ByBytes (texts : List String) : Prop :=
  texts.Pairwise fun a b => ¬ Utf8.encode b.toList < Utf8.encode a.toList

theorem byBytes_sorted (texts : List String) : ByBytes (sorted texts) :=
  (pairwise_sorted texts).imp fun hle hlt => hle (Utf8.encode_lt_iff.1 hlt)

theorem sorted_eq_of_pairwise {texts texts' : List String} (h : texts.Perm texts') (hs : texts'.Pairwise (· ≤ ·)) :
    sorted texts = texts' :=
  List.Perm.eq_of_pairwise (fun _ _ _ _ => String.le_antisymm) (pairwise_sorted texts) hs ((sorted_perm texts).trans h)

/-- Sorted, the same texts are the same list. -/
theorem sorted_eq {texts texts' : List String} (h : texts.Perm texts') : sorted texts = sorted texts' :=
  sorted_eq_of_pairwise (h.trans (sorted_perm texts').symm) (pairwise_sorted texts')

end Text

/-! ## Gathering -/

/-- Fields, each with what was said of it. -/
abbrev Findings := List (String × List (Option String))

namespace Findings

/-- What is said of a field. -/
def said (field : String) (ps : List Problem) : List (Option String) :=
  (ps.filter (·.field = field)).map (·.message)

/-- Every field with a problem is there once, with all that was said of it, in whatever order. -/
structure Holds (found : Findings) (ps : List Problem) : Prop where
  once : Keyed.Unique found
  whole : ∀ {field messages}, (field, messages) ∈ found → messages.Perm (said field ps)
  every : ∀ p ∈ ps, ∃ messages, (p.field, messages) ∈ found

/-- The texts in the order in which the fields are visited. -/
def texts (found : Findings) : List String :=
  found.flatMap fun f => f.2.map fun m => Problem.text ⟨f.1, m⟩

/-- The sorted texts, joined. -/
def summary (found : Findings) : String := String.intercalate "; " (Text.sorted found.texts)

/-- Adds a problem to what was said of its field. -/
def add (found : Findings) (p : Problem) : Findings :=
  Keyed.put p.field ((found.lookup p.field).getD [] ++ [p.message]) found

/-- One problem added after the other. -/
def ofProblems (ps : List Problem) : Findings := ps.foldl add []

section

variable {found : Findings} {ps ps' : List Problem}

theorem said_concat (field : String) (ps : List Problem) (p : Problem) :
    said field (ps ++ [p]) = said field ps ++ if p.field = field then [p.message] else [] := by
  unfold said
  rw [List.filter_append, List.map_append, List.filter_singleton]
  by_cases h : p.field = field <;> simp [h]

theorem Holds.lookup (h : found.Holds ps) (field : String) : ((found.lookup field).getD []).Perm (said field ps) := by
  cases hlookup : found.lookup field with
  | some messages => exact h.whole ((Keyed.lookup_eq_some h.once).1 hlookup)
  | none =>
    have hnothing : said field ps = [] := by
      refine List.map_eq_nil_iff.2 (List.filter_eq_nil_iff.2 fun p hp hfield => ?_)
      obtain ⟨messages, hmem⟩ := h.every p hp
      rw [of_decide_eq_true hfield, ← Keyed.lookup_eq_some h.once, hlookup] at hmem
      cases hmem
    rw [hnothing]
    exact .nil

theorem lookup_add (found : Findings) (p : Problem) (field : String) : (found.add p).lookup field =
    if field == p.field then some ((found.lookup p.field).getD [] ++ [p.message]) else found.lookup field :=
  Keyed.lookup_put ..

/-- What is added is among what was said of its field then, and of the others nothing more was said. -/
theorem holds_add (h : found.Holds ps) (p : Problem) : (found.add p).Holds (ps ++ [p]) := by
  have honce : Keyed.Unique (found.add p) := Keyed.unique_put h.once p.field _
  refine ⟨honce, fun {field messages} hmem => ?_, fun q hq => ?_⟩
  · rw [← Keyed.lookup_eq_some honce, lookup_add] at hmem
    rw [said_concat]
    split at hmem
    · rename_i hfield
      cases eq_of_beq hfield
      cases hmem
      rw [if_pos rfl]
      exact (h.lookup p.field).append_right _
    · rename_i hfield
      rw [if_neg fun he => hfield (beq_iff_eq.2 he.symm), List.append_nil]
      exact h.whole ((Keyed.lookup_eq_some h.once).1 hmem)
  · simp only [← Keyed.lookup_eq_some honce, lookup_add]
    split
    · exact ⟨_, rfl⟩
    · rename_i hfield
      rcases List.mem_append.1 hq with hq | hq
      · obtain ⟨messages, hmem⟩ := h.every q hq
        exact ⟨messages, (Keyed.lookup_eq_some h.once).2 hmem⟩
      · rw [List.mem_singleton.1 hq] at hfield
        exact absurd (beq_self_eq_true _) hfield

theorem holds_foldl (h : found.Holds ps) (qs : List Problem) : (qs.foldl add found).Holds (ps ++ qs) := by
  induction qs generalizing found ps with
  | nil => rwa [List.append_nil]
  | cons q qs ih =>
    rw [List.foldl_cons, List.append_cons]
    exact ih (holds_add h q)

theorem holds_nil : Holds [] [] := ⟨List.nodup_nil, (fun h => nomatch h), (fun _ h => nomatch h)⟩

theorem holds_ofProblems (ps : List Problem) : (ofProblems ps).Holds ps := holds_foldl holds_nil ps

theorem Holds.perm (h : found.Holds ps) (hps : ps.Perm ps') : found.Holds ps' :=
  ⟨h.once, fun hmem => (h.whole hmem).trans ((hps.filter _).map _), fun p hp => h.every p (hps.mem_iff.2 hp)⟩

theorem Holds.visited {found' : Findings} (h : found.Holds ps) (hfound : found.Perm found') : found'.Holds ps := by
  refine ⟨(hfound.map _).nodup_iff.1 h.once, fun hmem => h.whole (hfound.mem_iff.2 hmem), fun p hp => ?_⟩
  obtain ⟨messages, hmem⟩ := h.every p hp
  exact ⟨messages, hfound.mem_iff.1 hmem⟩

/-- The problems of the other fields are behind the first. -/
theorem Holds.tail {field : String} {messages : List (Option String)}
    (h : Holds ((field, messages) :: found) ps) : found.Holds (ps.filter fun p => !decide (p.field = field)) := by
  obtain ⟨hnew, honce⟩ := List.nodup_cons.1 h.once
  refine ⟨honce, fun {field' messages'} hmem => ?_, fun p hp => ?_⟩
  · have hne : field' ≠ field := by
      intro he
      exact hnew (List.mem_map.2 ⟨_, hmem, he⟩)
    refine (h.whole (List.mem_cons_of_mem _ hmem)).trans ?_
    unfold said
    rw [List.filter_filter]
    refine .of_eq (congrArg _ (List.filter_congr fun p _ => ?_))
    by_cases hp : p.field = field' <;> simp [hp, hne]
  · obtain ⟨hp, hfield⟩ := List.mem_filter.1 hp
    obtain ⟨messages', hmem⟩ := h.every p hp
    rcases List.mem_cons.1 hmem with he | hmem
    · cases he
      simp at hfield
    · exact ⟨messages', hmem⟩

/-- The texts behind the fields are those of the problems. -/
theorem texts_perm (h : found.Holds ps) : found.texts.Perm (ps.map Problem.text) := by
  induction found generalizing ps with
  | nil =>
    cases ps with
    | nil => exact .nil
    | cons p ps =>
      obtain ⟨_, hmem⟩ := h.every p List.mem_cons_self
      cases hmem
  | cons f found ih =>
    obtain ⟨field, messages⟩ := f
    have hfirst : (messages.map fun m => Problem.text ⟨field, m⟩).Perm
        ((ps.filter (·.field = field)).map Problem.text) := by
      refine ((h.whole List.mem_cons_self).map _).trans (.of_eq ?_)
      unfold said
      rw [List.map_map]
      refine List.map_congr_left fun p hp => ?_
      obtain rfl : p.field = field := of_decide_eq_true (List.mem_filter.1 hp).2
      rfl
    have hparts := (List.filter_append_perm (fun p : Problem => decide (p.field = field)) ps).map Problem.text
    rw [List.map_append] at hparts
    exact (hfirst.append (ih h.tail)).trans hparts

theorem summary_eq (h : found.Holds ps) : found.summary = Problem.summary ps := by
  unfold summary Problem.summary
  rw [Text.sorted_eq (texts_perm h)]

end

end Findings

/-! ## Calls -/

/-- What is wrong with the fields of a call. -/
def Command.problems : Command → List Problem
  | .checkIn session member | .checkOut session member => keyProblems session member
  | .request _ session member _ reason => keyProblems session member ++ requireShort "reason" "reason" reason
  | .approve _ session member reason => Service.approvalProblems session member reason
  | .reject _ session member reason =>
    keyProblems session member ++ requireShort "rejection_reason" "rejection reason" reason

def Inquiry.problems : Inquiry → List Problem
  | .status session member | .correctionState session member | .history session member => keyProblems session member
  | .memberSummary member _ => requirePositive "member_id" member
  | .courseSummary course => requirePositive "course_id" course

section

variable {σ α : Type} (b : Backend σ) (t : Instant) (s : σ) {problems : List Problem}

theorem run_require (h : problems ≠ []) (rest : Unit → Plan α) :
    (Service.require problems >>= rest).run b t s = ⟨.error (.validation (Problem.summary problems)), s, []⟩ := by
  have hempty : problems.isEmpty = false := List.isEmpty_eq_false_iff.2 h
  unfold Service.require
  rw [hempty]
  rfl

/-- A call with bad fields fails with what is wrong with them, before it asks anything. -/
theorem Command.run_of_problems {c : Command} (h : c.problems ≠ []) :
    c.plan.run b t s = ⟨.error (.validation (Problem.summary c.problems)), s, []⟩ := by
  cases c <;> exact run_require b t s h _

theorem summary_of_requirePositive {field : String} {id : Int64} (h : requirePositive field id ≠ []) :
    id < 1 ∧ Problem.summary (requirePositive field id) = s!"{field} must be positive" := by
  unfold requirePositive at h ⊢
  split at h
  · exact absurd rfl h
  · rename_i hid
    exact ⟨Int64.not_le.1 hid, by simp [if_neg hid, Problem.summary, Text.sorted, Problem.text]⟩

theorem Inquiry.run_of_problems {i : Inquiry} (h : i.problems ≠ []) :
    i.plan.run b t s = ⟨.error (.validation (Problem.summary i.problems)), s, []⟩ := by
  cases i with
  | status session member => exact run_require b t s h _
  | correctionState session member => exact run_require b t s h _
  | history session member => exact run_require b t s h _
  | memberSummary member sessions =>
    obtain ⟨hid, hsummary⟩ := summary_of_requirePositive h
    show (Service.memberSummary member sessions).run b t s =
      ⟨.error (.validation (Problem.summary (requirePositive _ _))), s, []⟩
    unfold Service.memberSummary
    rw [if_pos hid, hsummary]
    rfl
  | courseSummary course =>
    obtain ⟨hid, hsummary⟩ := summary_of_requirePositive h
    show (Service.courseSummary course).run b t s =
      ⟨.error (.validation (Problem.summary (requirePositive _ _))), s, []⟩
    unfold Service.courseSummary
    rw [if_pos hid, hsummary]
    rfl

end

/-! ## Any order -/

/-- Whatever order problems are added in and whatever order their fields are visited in: what is said of them is all of
    their messages in the order of their bytes, joined, and for a problem without one that its field is invalid. So a
    call with bad fields fails with one and the same text. -/
theorem Findings.orderless :
    (∀ (ps : List Problem) (found : Findings), found.Perm (ofProblems ps) → found.Holds ps) ∧
    (∀ ps : List Problem, ∃ texts : List String,
      texts.Perm (ps.map fun p => p.message.getD (p.field ++ " is invalid")) ∧ Text.ByBytes texts ∧
      ∀ (ps' : List Problem) (found : Findings), ps'.Perm ps → found.Holds ps' →
        found.summary = String.intercalate "; " texts) ∧
    (∀ (c : Command) (ps : List Problem) (found : Findings), c.problems ≠ [] → ps.Perm c.problems → found.Holds ps →
      ∀ {σ : Type} (b : Backend σ) (t : Instant) (s : σ),
        c.plan.run b t s = ⟨.error (.validation found.summary), s, []⟩) ∧
    ∀ (i : Inquiry) (ps : List Problem) (found : Findings), i.problems ≠ [] → ps.Perm i.problems → found.Holds ps →
      ∀ {σ : Type} (b : Backend σ) (t : Instant) (s : σ),
        i.plan.run b t s = ⟨.error (.validation found.summary), s, []⟩ := by
  refine ⟨fun ps found hvisited => (holds_ofProblems ps).visited hvisited.symm, fun ps => ?_,
    fun c ps found hbad hps hfound σ b t s => ?_, fun i ps found hbad hps hfound σ b t s => ?_⟩
  · exact ⟨Text.sorted (ps.map Problem.text), Text.sorted_perm _, Text.byBytes_sorted _,
      fun ps' found hps hfound => summary_eq (hfound.perm hps)⟩
  · rw [Command.run_of_problems b t s hbad, summary_eq (hfound.perm hps)]
  · rw [Inquiry.run_of_problems b t s hbad, summary_eq (hfound.perm hps)]

/-- Four problems gathered in both directions, and a check-in of nobody to no session whose member is visited first. -/
theorem Findings.orderless_turned :
    Findings.summary [("b", [none, some "é", none]), ("a", [some "z"])] =
        Findings.summary [("a", [some "z"]), ("b", [none, some "é", none])] ∧
      (Command.checkIn 0 0).plan.run Store.backend morning (.memory ⟨school, ⟨0, []⟩⟩) =
        ⟨.error (.validation "member_id must be positive; session_id must be positive"),
          .memory ⟨school, ⟨0, []⟩⟩, []⟩ := by
  obtain ⟨hvisited, htexts, hcommand, -⟩ := Findings.orderless
  refine ⟨?_, ?_⟩
  · let ps : List Problem := [⟨"b", none⟩, ⟨"a", some "z"⟩, ⟨"b", some "é"⟩, ⟨"b", none⟩]
    obtain ⟨texts, -, -, hsummary⟩ := htexts ps
    have hforth := hsummary ps [("b", [none, some "é", none]), ("a", [some "z"])] (.refl ps) (hvisited ps _ (by decide))
    have hback := hsummary ps.reverse [("a", [some "z"]), ("b", [none, some "é", none])] (List.reverse_perm ps)
      (hvisited ps.reverse _ (by decide))
    exact hforth.trans hback.symm
  · let found : Findings :=
      [("member_id", [some "member_id must be positive"]), ("session_id", [some "session_id must be positive"])]
    have hsummary : found.summary = "member_id must be positive; session_id must be positive" := by
      unfold summary
      rw [Text.sorted_eq_of_pairwise (.refl found.texts) (by decide)]
      decide
    have hrun := hcommand (.checkIn 0 0) (Command.checkIn 0 0).problems.reverse found (by decide)
      (List.reverse_perm _) (hvisited _ _ (by decide)) Store.backend morning (.memory ⟨school, ⟨0, []⟩⟩)
    rw [hrun, hsummary]

end Rollbook
