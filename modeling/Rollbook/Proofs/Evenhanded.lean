import Mathlib.Data.List.Forall2
import Rollbook.Proofs.Observed
/-
  Rollbook.Proofs.Evenhanded — approving and rejecting take the same authority.

  Whoever may turn a request down can dispose of it, so turning down must not be easier
  than approving. The two are written apart, each with its own look at the reason.

  They stand side by side here (`Abreast`): they ask the same questions, read the clock
  at the same places and fail in the same way, until both come to their append. The
  records that they append differ in the words of one event, and of those no store takes
  notice: it looks at versions, numbers and positions (`Record.Alike`, `impartial_store`).
  So wherever one fails the other fails with the same error, in every state of either
  backend, reachable or not, and whatever is down (`evenhanded_reviews`). For the same
  cause an approval is as good with one reason as with another.
-/

namespace Rollbook

open Plan

variable {σ α : Type}

/-! ## The same fate -/

/-- Both succeed, or both fail with the same error. -/
def SameFate {β : Type} : Except Failure α → Except Failure β → Prop
  | .ok _, .ok _ => True
  | .error e, .error e' => e = e'
  | _, _ => False

/-- The questions that a plan comes to ask, but for its appends. -/
def Plan.lookups (b : Backend σ) (t : Instant) : Plan α → σ → List Query
  | .done _, _ => []
  | .ask q next, s =>
    (if q.method = .append then [] else [q]) ++
      match b q s with
      | ⟨.ok a, s', _⟩ => lookups b t (next a) s'
      | ⟨.error _, _, _⟩ => []
  | .clock next, s => lookups b t (next t) s
  | .note _ next, s => lookups b t next s

/-- From a state the two plans make the same look-ups and have the same fate. -/
structure Evenhanded (b : Backend σ) (t : Instant) (s : σ) (p p' : Plan α) : Prop where
  fate : SameFate (p.run b t s).result (p'.run b t s).result
  lookups : p.lookups b t s = p'.lookups b t s

/-! ## Records that a store does not tell apart -/

/-- The two differ in nothing but what their events say. -/
structure Record.Alike (r r' : Record) : Prop where
  id : r.id = r'.id
  session : r.session = r'.session
  member : r.member = r'.member
  version : r.version = r'.version
  persisted : r.persisted = r'.persisted
  length : r.events.length = r'.events.length

theorem Record.alike_add (r : Record) (e e' : Event) : (r.add e).Alike (r.add e') :=
  ⟨rfl, rfl, rfl, rfl, rfl, by simp [Record.add]⟩

theorem Record.Alike.isEmpty {r r' : Record} (h : r.Alike r') : r.uncommitted.isEmpty = r'.uncommitted.isEmpty := by
  rw [Bool.eq_iff_iff]
  simp only [Record.uncommitted, List.isEmpty_iff, List.drop_eq_nil_iff]
  rw [h.length, h.persisted]

/-- A backend for which it makes no difference what the events of an append say. -/
def Backend.Impartial (b : Backend σ) : Prop :=
  ∀ r r' s, r.Alike r' → SameFate (b (.append r) s).result (b (.append r') s).result

theorem impartial_memory (m : Memory) {r r' : Record} (h : r.Alike r') :
    SameFate (Memory.backend (.append r) m).result (Memory.backend (.append r') m).result := by
  show SameFate (m.shelf.append r).result (m.shelf.append r').result
  unfold Shelf.append
  rw [h.session, h.member, h.version, h.isEmpty]
  dsimp only
  by_cases hversion : ((m.shelf.stored? r'.session r'.member).map (·.version)).getD 0 = r'.version
  · cases hempty : r'.uncommitted.isEmpty <;> simp [hversion, SameFate]
  · simp [hversion, SameFate]

namespace Tables

/-- The same rows, whatever the events in them say. -/
structure SameSlots (t t' : Tables) : Prop where
  headers : t.headers = t'.headers
  slots : t.entries.map (fun e => (e.record, e.position)) = t'.entries.map fun e => (e.record, e.position)

theorem SameSlots.any_eq {t t' : Tables} (h : t.SameSlots t') (id : RecordId) (position : Int) :
    (t.entries.any fun e => e.record = id ∧ e.position = position) =
      t'.entries.any fun e => e.record = id ∧ e.position = position := by
  have hany (es : List Entry) : (es.any fun e => e.record = id ∧ e.position = position) =
      (es.map fun e => (e.record, e.position)).any (· = (id, position)) := by
    simp [List.any_map, Function.comp_def]
  rw [hany, hany, h.slots]

/-- Rows at the same places have the same fate, and what comes of it is the same again. -/
theorem insertEntries_alike {es es' : List Entry} (he : List.Forall₂ (fun e e' => e.record = e'.record ∧
    e.position = e'.position) es es') {t t' : Tables} (h : t.SameSlots t') :
    (∃ u u', es.foldlM insertEntry t = .ok u ∧ es'.foldlM insertEntry t' = .ok u') ∨
      ∃ e, es.foldlM insertEntry t = .error e ∧ es'.foldlM insertEntry t' = .error e := by
  induction he generalizing t t' with
  | nil => exact Or.inl ⟨t, t', rfl, rfl⟩
  | @cons e e' es es' hsame _ ih =>
    obtain ⟨hrecord, hposition⟩ := hsame
    have hany : (t'.entries.any fun old => old.record = e'.record ∧ old.position = e'.position) =
        t.entries.any fun old => old.record = e.record ∧ old.position = e.position := by
      rw [← hrecord, ← hposition, h.any_eq]
    have hhas : t'.hasRecord e'.record = t.hasRecord e.record := by
      rw [hasRecord, hasRecord, h.headers, hrecord]
    rw [List.foldlM_cons, List.foldlM_cons]
    unfold insertEntry
    rw [hany, hhas]
    by_cases htaken : (t.entries.any fun old => old.record = e.record ∧ old.position = e.position) = true
    · rw [if_pos htaken, if_pos htaken]
      exact Or.inr ⟨_, rfl, rfl⟩
    rw [if_neg htaken, if_neg htaken]
    by_cases hparent : t.hasRecord e.record = true
    · rw [if_pos hparent, if_pos hparent]
      exact ih ⟨h.headers, by simp [h.slots, hrecord, hposition]⟩
    · rw [if_neg hparent, if_neg hparent]
      exact Or.inr ⟨_, rfl, rfl⟩

/-- The new rows of records that are alike stand at the same places. -/
theorem newEntries_alike {r r' : Record} (h : r.Alike r') (id : RecordId) :
    List.Forall₂ (fun e e' : Entry => e.record = e'.record ∧ e.position = e'.position) (newEntries r id)
      (newEntries r' id) := by
  have hlength : r.uncommitted.length = r'.uncommitted.length := by
    simp [Record.uncommitted, h.length, h.persisted]
  refine List.forall₂_iff_get.2 ⟨by simp [newEntries, hlength], fun i hi hi' => ?_⟩
  simp [newEntries, h.persisted]

theorem secureHeader_alike (t : Tables) {r r' : Record} (h : r.Alike r') : t.secureHeader r = t.secureHeader r' := by
  unfold secureHeader insertHeader
  rw [h.id, h.session, h.member, h.version]

theorem impartial_append (t : Tables) {r r' : Record} (h : r.Alike r') :
    SameFate (t.append r).result (t.append r').result := by
  unfold append
  rw [h.session, h.member, h.version, h.isEmpty, h.length, secureHeader_alike t h]
  dsimp only
  by_cases hempty : r'.uncommitted.isEmpty = true
  · by_cases hversion : t.versionOf r'.session r'.member = r'.version <;> simp [hempty, hversion, SameFate]
  by_cases hlong : lastPosition + 1 < r'.events.length
  · simp [hempty, hlong, SameFate]
  by_cases hlast : r'.version = lastVersion
  · simp [hempty, hlong, hlast, SameFate]
  rw [if_neg hempty, if_neg hlong, if_neg hlast, if_neg hempty, if_neg hlong, if_neg hlast]
  cases t.secureHeader r' with
  | error why => cases why <;> rfl
  | ok secured =>
    obtain ⟨id, t'⟩ := secured
    have hrows := newEntries_alike h id
    have hsame : SameSlots t' t' := ⟨rfl, rfl⟩
    dsimp only
    unfold insertEntries
    rw [hrows.length_eq]
    by_cases hmany : mostValues < valuesOfEntry * (newEntries r' id).length
    · simp [hmany, SameFate]
    rw [if_neg hmany, if_neg hmany]
    rcases insertEntries_alike hrows hsame with ⟨u, u', hu, hu'⟩ | ⟨e, he, he'⟩
    · simp [hu, hu', SameFate]
    · simp [he, he', SameFate]

end Tables

theorem impartial_store : Store.backend.Impartial := by
  intro r r' st h
  cases st with
  | memory m => exact impartial_memory m h
  | tables t => exact Tables.impartial_append t h

theorem impartial_withOutages {b : Backend σ} (hb : b.Impartial) (down : Outages) : (b.withOutages down).Impartial := by
  intro r r' s h
  have hmethod : (Query.append r).method = (Query.append r').method := rfl
  unfold Backend.withOutages
  rw [hmethod]
  cases down.lookup (Query.append r').method with
  | none => exact hb r r' s h
  | some e => rfl

/-! ## Side by side -/

namespace Plan

variable {b : Backend σ} {t : Instant} {s : σ}

/-- The two ask the same and fail in the same way, up to appends of records that are alike. -/
inductive Abreast : Plan Record → Plan Record → Prop
  | failed (e : Failure) : Abreast (.done (.error e)) (.done (.error e))
  | append {r r' : Record} : r.Alike r' → Abreast (Plan.append r) (Plan.append r')
  | ask {q : Query} {next next' : q.Answer → Plan Record} : (∀ a, Abreast (next a) (next' a)) →
      Abreast (.ask q next) (.ask q next')
  | clock {next next' : Instant → Plan Record} : (∀ t, Abreast (next t) (next' t)) → Abreast (.clock next) (.clock next')
  | note {n n' : Notice} {p p' : Plan Record} : Abreast p p' → Abreast (.note n p) (.note n' p')

theorem bind_bind {α β γ : Type} (p : Plan α) (f : α → Plan β) (g : β → Plan γ) :
    (p >>= f) >>= g = p >>= fun a => f a >>= g := by
  induction p with
  | done r => cases r <;> rfl
  | ask q next ih => exact congrArg (Plan.ask q) (funext ih)
  | clock next ih => exact congrArg Plan.clock (funext ih)
  | note n next ih => exact congrArg (Plan.note n) ih

/-- What is abreast behind the same beginning is abreast from there. -/
theorem abreast_bind (p : Plan α) {f f' : α → Plan Record} (h : ∀ a, Abreast (f a) (f' a)) :
    Abreast (p >>= f) (p >>= f') := by
  induction p with
  | done r =>
    cases r with
    | ok a => exact h a
    | error e => exact .failed e
  | ask q next ih => exact .ask fun a => ih a
  | clock next ih => exact .clock fun t => ih t
  | note n next ih => exact .note ih

theorem evenhanded_of_abreast (hb : b.Impartial) {p p' : Plan Record} (h : Abreast p p') : Evenhanded b t s p p' := by
  induction h generalizing s with
  | failed e => exact ⟨rfl, rfl⟩
  | @append r r' halike =>
    have hfate := hb r r' s halike
    refine ⟨?_, ?_⟩
    · show SameFate ((query (.append r)).run b t s).result ((query (.append r')).run b t s).result
      rw [run_query, run_query]
      exact hfate
    · show Plan.lookups b t (.ask (.append r) fun a => .done (.ok a)) s =
        Plan.lookups b t (.ask (.append r') fun a => .done (.ok a)) s
      simp only [Plan.lookups, Query.method]
      cases b (.append r) s with
      | mk result s' notes =>
        cases b (.append r') s with
        | mk result' s'' notes' => cases result <;> cases result' <;> rfl
  | @ask q next next' _ ih =>
    cases hq : b q s with
    | mk result s' notes =>
      cases result with
      | error e => exact ⟨by simp [run, hq, SameFate], by simp [Plan.lookups, hq]⟩
      | ok a =>
        obtain ⟨hfate, hlookups⟩ := ih a (s := s')
        exact ⟨by simpa [run, hq] using hfate, by simp [Plan.lookups, hq, hlookups]⟩
  | clock _ ih => exact ⟨(ih t).fate, (ih t).lookups⟩
  | note _ ih => exact ⟨ih.fate, ih.lookups⟩

end Plan

/-! ## Approving and rejecting -/

theorem requireShort_eq_nil {field what text : String} (h : text.length ≤ longestReason) :
    requireShort field what text = [] := by
  simp [requireShort, h]

namespace Correction

/-- A pending request is reviewed, and then resolved in one way or another. -/
def resolving (r : Record) (actor : MemberId) (finish : Request → Plan Record) : Plan Record := do
  let pending ← pendingOf r
  checkReview r actor pending
  finish pending

theorem abreast_resolving {r : Record} {actor : MemberId} {finish finish' : Request → Plan Record}
    (h : ∀ q, Abreast (finish q >>= Plan.append) (finish' q >>= Plan.append)) :
    Abreast (resolving r actor finish >>= Plan.append) (resolving r actor finish' >>= Plan.append) := by
  have hsplit (finish : Request → Plan Record) : resolving r actor finish >>= Plan.append =
      pendingOf r >>= fun q => checkReview r actor q >>= fun _ => finish q >>= Plan.append := by
    unfold resolving
    rw [bind_bind]
    congr
    funext q
    rw [bind_bind]
  rw [hsplit, hsplit]
  exact abreast_bind _ fun q => abreast_bind _ fun _ => h q

/-- Approving leaves off where rejecting does, if the reason of the rejection says something. -/
theorem abreast_reject {r : Record} {actor : MemberId} {reason : Option String} {rejection : String}
    (h : Text.allBlank rejection = false) :
    Abreast (approve r actor reason >>= Plan.append) (reject r actor rejection >>= Plan.append) := by
  have hsaid : (Text.trim rejection).isEmpty = false := by rw [Text.isEmpty_trim, h]
  have hreject : reject r actor rejection = resolving r actor fun _ => do
      let time ← Plan.now
      Plan.log (.rejected actor r.member r.session)
      return r.add (.rejected time (Text.trim rejection) actor) := by
    simp [reject, resolving, hsaid]
  rw [hreject]
  exact abreast_resolving fun _ => .clock fun _ => .note (.append (Record.alike_add r _ _))

theorem abreast_approve {r : Record} {actor : MemberId} {reason other : Option String} :
    Abreast (approve r actor reason >>= Plan.append) (approve r actor other >>= Plan.append) :=
  abreast_resolving fun _ => .clock fun _ => .note (.append (Record.alike_add r _ _))

end Correction

namespace Service

/-- A call that reviews a correction, by what it finds wrong with its fields and how it resolves the request. -/
def reviewing (problems : List Problem) (session : SessionId) (member : MemberId) (resolve : Record → Plan Record) :
    Plan Record := do
  require problems
  let record ← loadExisting session member
  let record ← resolve record
  Plan.append record

theorem approveCorrection_eq {actor : MemberId} {session : SessionId} {member : MemberId} {reason : Option String}
    (h : ∀ text, reason = some text → text.length ≤ longestReason) :
    approveCorrection actor session member reason =
      reviewing (keyProblems session member) session member fun r => Correction.approve r actor reason := by
  have hproblems : approvalProblems session member reason = keyProblems session member := by
    cases reason with
    | none => simp [approvalProblems]
    | some text => simp [approvalProblems, requireShort_eq_nil (h text rfl)]
  unfold approveCorrection reviewing
  rw [hproblems]

theorem rejectCorrection_eq {actor : MemberId} {session : SessionId} {member : MemberId} {reason : String}
    (h : reason.length ≤ longestReason) :
    rejectCorrection actor session member reason =
      reviewing (keyProblems session member) session member fun r => Correction.reject r actor reason := by
  unfold rejectCorrection reviewing
  rw [requireShort_eq_nil h, List.append_nil]

theorem abreast_reviewing {problems : List Problem} {session : SessionId} {member : MemberId}
    {resolve resolve' : Record → Plan Record} (h : ∀ r, Abreast (resolve r >>= Plan.append) (resolve' r >>= Plan.append)) :
    Abreast (reviewing problems session member resolve) (reviewing problems session member resolve') :=
  abreast_bind _ fun _ => abreast_bind _ fun r => h r

end Service

/-- In any state of either backend and whatever is down: approving and rejecting a correction make the same look-ups,
    and both succeed or both fail with the same error, whoever reviews and whatever the reasons are, as long as they
    are not too long and that of the rejection says something. The reason of an approval decides nothing. -/
theorem evenhanded_reviews (st : Store) (t : Instant) (down : Outages) (actor : MemberId) (session : SessionId)
    (member : MemberId) {reason other : Option String} {rejection : String}
    (hreason : ∀ text, reason = some text → text.length ≤ longestReason)
    (hother : ∀ text, other = some text → text.length ≤ longestReason) (hrejection : rejection.length ≤ longestReason)
    (hsaid : Text.allBlank rejection = false) :
    let b := Store.backend.withOutages down
    Evenhanded b t st (Service.approveCorrection actor session member reason)
        (Service.rejectCorrection actor session member rejection) ∧
      Evenhanded b t st (Service.approveCorrection actor session member reason)
        (Service.approveCorrection actor session member other) := by
  have hb := impartial_withOutages impartial_store down
  rw [Service.approveCorrection_eq hreason, Service.approveCorrection_eq hother, Service.rejectCorrection_eq hrejection]
  refine ⟨?_, ?_⟩
  · exact evenhanded_of_abreast hb (Service.abreast_reviewing fun r => Correction.abreast_reject hsaid)
  · exact evenhanded_of_abreast hb (Service.abreast_reviewing fun r => Correction.abreast_approve)

/-- A mentor may neither approve nor reject what the mentor has filed, with three look-ups each, and a blank reason does
    not help. The manager may do both. -/
theorem evenhanded_reviews_own : ∃ st : Store,
    let b := Store.backend.withOutages []
    (Evenhanded b morning st (Service.approveCorrection 2 7 1 (some " ")) (Service.rejectCorrection 2 7 1 "no") ∧
      ((Service.rejectCorrection 2 7 1 "no").run b morning st).result = .error .ownReview ∧
      (Service.rejectCorrection 2 7 1 "no").lookups b morning st =
        [.find 7 1, .sessionScope 7, .courseRole 2 5]) ∧
    Evenhanded b morning st (Service.approveCorrection 3 7 1 (some " ")) (Service.rejectCorrection 3 7 1 "no") ∧
      ((Service.rejectCorrection 3 7 1 "no").run b morning st).result.isOk = true := by
  let filed : List Event := [.checkedIn morning, .requested ⟨morning, .present, .late, "bus", 2, ⟨.course, 1⟩⟩]
  let st : Store := .memory ⟨school, ⟨1, [((7, 1), ⟨1, 2, filed⟩)]⟩⟩
  have hblank : ∀ text, some " " = some text → text.length ≤ longestReason := by
    rintro text ⟨⟩
    decide
  have hreviews (actor : MemberId) := @evenhanded_reviews st morning [] actor 7 1 (some " ") none "no" hblank
    (fun text h => by cases h) (by decide) (by decide)
  exact ⟨st, ⟨(hreviews 2).1, rfl, rfl⟩, (hreviews 3).1, rfl⟩

end Rollbook
