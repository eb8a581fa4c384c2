import Rollbook.Proofs.World
/-
  Rollbook.Proofs.Alike — the two backends give the same answers.

  Twins are a memory and tables that are asked the same questions, by clients who take
  records from the answers of either, change them and offer them to both. In every state
  they come to, they answer every question alike (`Alike`): what is found is the same
  record, what is listed are the same records, and an append comes back with the same
  record or the same conflict.

  Tables have limits that a memory has not, and ask for the rows that a new header names.
  Within these (`Fits`, and the rows of every record that is made) the tables stay a
  picture of the shelf, which is the invariant that carries the proof.
-/

namespace Rollbook

open Ledger

/-- A memory and tables side by side, and the records of their clients. -/
structure Twins where
  memory : Memory
  tables : Tables
  held : List Record

namespace Twins

/-- The record that came back, if one did. -/
def back : Except Failure Record → List Record
  | .ok r => [r]
  | .error _ => []

/-- There is room for the log, the rows of an append fit into one request, and there is a number for a new
    header. -/
structure Fits (p : Twins) (r : Record) : Prop where
  short : r.events.length ≤ Tables.lastPosition + 1
  few : Tables.valuesOfEntry * r.uncommitted.length ≤ Tables.mostValues
  number : p.tables.HasNumber r

/-- The twins after an append to both. -/
def append (p : Twins) (r : Record) : Twins where
  memory := (Memory.backend (.append r) p.memory).state
  tables := (Tables.backend (.append r) p.tables).state
  held := back (Memory.backend (.append r) p.memory).result ++
    (back (Tables.backend (.append r) p.tables).result ++ p.held)

inductive Step (p : Twins) : Twins → Prop
  /-- A record that was never stored, of a session and a member that the tables know. -/
  | fresh (session : SessionId) (member : MemberId) : p.tables.sessions.contains session = true →
      p.tables.members.contains member = true → Step p { p with held := .new session member :: p.held }
  | found {session : SessionId} {member : MemberId} {r : Record} :
      (Memory.backend (.find session member) p.memory).result = .ok (some r) ∨
        (Tables.backend (.find session member) p.tables).result = .ok (some r) →
      Step p { p with held := r :: p.held }
  | listed {member : MemberId} {sessions : List SessionId} {rs : List Record} :
      (Memory.backend (.findAll member sessions) p.memory).result = .ok rs ∨
        (Tables.backend (.findAll member sessions) p.tables).result = .ok rs →
      Step p { p with held := rs ++ p.held }
  /-- A transition, whatever it was answered; the record from before it is kept too. -/
  | changed {r r' : Record} {c : Command} {is : List Input} : r ∈ p.held → c.Transition r is r' →
      Step p { p with held := r' :: p.held }
  | appended {r : Record} : r ∈ p.held → p.Fits r → Step p (p.append r)

inductive Reach : Twins → Prop
  | start {m : Memory} {t : Tables} : (Store.memory m).Blank → (Store.tables t).Blank → Reach ⟨m, t, []⟩
  | step {p p' : Twins} : Reach p → Step p p' → Reach p'

/-- The twins answer alike. -/
structure Alike (p : Twins) : Prop where
  find : ∀ session member, (Tables.backend (.find session member) p.tables).result =
    (Memory.backend (.find session member) p.memory).result
  /-- The same records, order and repetition aside. -/
  findAll : ∀ member (sessions : List SessionId), sessions.length + 1 ≤ Tables.mostValues →
    ∃ rs rs' : List Record, (Tables.backend (.findAll member sessions) p.tables).result = .ok rs ∧
      (Memory.backend (.findAll member sessions) p.memory).result = .ok rs' ∧ ∀ r, r ∈ rs ↔ r ∈ rs'
  append : ∀ r ∈ p.held, p.Fits r →
    (Tables.backend (.append r) p.tables).result = (Memory.backend (.append r) p.memory).result

/-! ## The invariant -/

/-- The record knows what is stored, and the rows that its first append names are there. -/
structure Sound (m : Memory) (t : Tables) (ledger : List Record) (r : Record) : Prop
    extends Known ledger m.shelf r where
  parents : r.version = 0 → (t.sessions.contains r.session && t.members.contains r.member) = true

structure Inv (p : Twins) (ledger : List Record) : Prop where
  balanced : p.memory.shelf.Balanced ledger
  ordered : Ordered ledger
  same : p.tables.Represents p.memory.shelf
  held : ∀ r ∈ p.held, Sound p.memory p.tables ledger r

variable {p : Twins} {ledger : List Record} {r : Record}

theorem sound_found (hi : p.Inv ledger) {session : SessionId} {member : MemberId}
    (h : p.memory.shelf.find session member = some r) : Sound p.memory p.tables ledger r := by
  refine ⟨known_found hi.balanced h, fun h0 => ?_⟩
  obtain ⟨k, hk, rfl⟩ := Option.map_eq_some_iff.1 h
  obtain ⟨hne, hv, -⟩ := hi.balanced.kept _ _ k hk
  have hpos := List.length_pos_iff.2 hne
  have h0 : k.version = 0 := h0
  rw [hv] at h0
  exact absurd (Int.natCast_eq_zero.1 h0) (Nat.ne_of_gt hpos)

theorem inv_held (hi : p.Inv ledger) {rs : List Record} (h : ∀ r ∈ rs, Sound p.memory p.tables ledger r) :
    Inv { p with held := rs ++ p.held } ledger := by
  refine ⟨hi.balanced, hi.ordered, hi.same, fun r hr => ?_⟩
  rcases List.mem_append.1 hr with hr | hr
  · exact h r hr
  · exact hi.held r hr

theorem inv_hold (hi : p.Inv ledger) (h : Sound p.memory p.tables ledger r) :
    Inv { p with held := r :: p.held } ledger := by
  refine ⟨hi.balanced, hi.ordered, hi.same, fun r' hr' => ?_⟩
  rcases List.mem_cons.1 hr' with rfl | hr'
  · exact h
  · exact hi.held r' hr'

theorem fits_of_sound (hs : Sound p.memory p.tables ledger r) (hf : p.Fits r) : p.tables.Fits r :=
  ⟨hf.short, hf.few, hf.number, hs.parents⟩

/-! ## Appending to both -/

/-- An append does the same to both twins: it is a posting to both, it has nothing to add to either, or it
    conflicts with both. -/
theorem append_cases (hi : p.Inv ledger) (hs : Sound p.memory p.tables ledger r) (hf : p.Fits r) :
    (p.memory.shelf.found r = r.version ∧ r.uncommitted ≠ [] ∧
        p.memory.shelf.append r = ⟨.ok (r.stored (p.memory.shelf.postedId r)), p.memory.shelf.posted r, []⟩ ∧
        ∃ t', p.tables.append r = ⟨.ok (r.stored (p.memory.shelf.postedId r)), t', []⟩ ∧
          t'.Represents (p.memory.shelf.posted r) ∧ t'.sessions = p.tables.sessions ∧
          t'.members = p.tables.members) ∨
      ∃ res notes notes', (res = .ok r ∨ ∃ e, res = .error e) ∧
        p.memory.shelf.append r = ⟨res, p.memory.shelf, notes⟩ ∧ p.tables.append r = ⟨res, p.tables, notes'⟩ := by
  by_cases hv : p.memory.shelf.found r = r.version
  · by_cases hu : r.uncommitted = []
    · have htables := Tables.append_idle hi.same hu
      rw [if_pos hv] at htables
      exact Or.inr ⟨_, _, _, Or.inl rfl, Shelf.append_idle hv hu, htables⟩
    · exact Or.inl ⟨hv, hu, Shelf.append_posted hv hu,
        Tables.append_posted hi.same hi.balanced hi.ordered hs.toKnown hv hu (fits_of_sound hs hf)⟩
  · by_cases hu : r.uncommitted = []
    · have htables := Tables.append_idle hi.same hu
      rw [if_neg hv] at htables
      exact Or.inr ⟨_, _, _, Or.inr ⟨_, rfl⟩, Shelf.append_outdated hv, htables⟩
    · exact Or.inr ⟨_, _, _, Or.inr ⟨_, rfl⟩, Shelf.append_outdated hv,
        Tables.append_outdated hi.same hi.balanced hi.ordered hs.toKnown hf.number hv hu hf.short⟩

/-- After a posting to both. -/
theorem inv_posted (hi : p.Inv ledger) (hs : Sound p.memory p.tables ledger r)
    (hv : p.memory.shelf.found r = r.version) (hu : r.uncommitted ≠ []) {t : Tables}
    (hrep : t.Represents (p.memory.shelf.posted r))
    (hsessions : t.sessions = p.tables.sessions) (hmembers : t.members = p.tables.members) :
    Inv ⟨{ p.memory with shelf := p.memory.shelf.posted r }, t, p.held⟩ (ledger ++ [r]) := by
  refine ⟨Shelf.balanced_posted hi.balanced hv, Shelf.ordered_posted hi.ordered hi.balanced hs.toKnown hv hu, hrep,
    fun r' hr' => ?_⟩
  have hold := hi.held r' hr'
  refine ⟨Shelf.known_posted hi.balanced hold.toKnown, fun h0 => ?_⟩
  show (t.sessions.contains r'.session && t.members.contains r'.member) = true
  rw [hsessions, hmembers]
  exact hold.parents h0

/-- What comes back from a posting has a version, so it names no new header. -/
theorem sound_saved (hi : p.Inv ledger) (hs : Sound p.memory p.tables ledger r)
    (hv : p.memory.shelf.found r = r.version) (t : Tables) :
    Sound { p.memory with shelf := p.memory.shelf.posted r } t (ledger ++ [r])
      (r.stored (p.memory.shelf.postedId r)) := by
  refine ⟨Shelf.known_saved hi.balanced hs.toKnown hv, fun h0 => ?_⟩
  obtain ⟨v, hrv, -⟩ := hs.behind
  have h0 : r.version + 1 = 0 := h0
  rw [hrv] at h0
  exact absurd h0 (Int.ofNat_ne_zero.2 (Nat.succ_ne_zero v))

theorem inv_append (hi : p.Inv ledger) (hs : Sound p.memory p.tables ledger r) (hf : p.Fits r) :
    ∃ ledger', (p.append r).Inv ledger' := by
  rcases append_cases hi hs hf with
    ⟨hv, hu, hmemory, t', htables, hrep, hsessions, hmembers⟩ | ⟨res, notes, notes', hres, hmemory, htables⟩
  · have hp : p.append r = ⟨{ p.memory with shelf := p.memory.shelf.posted r }, t',
        r.stored (p.memory.shelf.postedId r) :: r.stored (p.memory.shelf.postedId r) :: p.held⟩ := by
      simp only [append, Memory.backend, Tables.backend, hmemory, htables]
      rfl
    have hinv := inv_posted hi hs hv hu hrep hsessions hmembers
    have hsaved := sound_saved hi hs hv t'
    rw [hp]
    exact ⟨ledger ++ [r], inv_hold (inv_hold hinv hsaved) hsaved⟩
  · have hp : p.append r = { p with held := back res ++ (back res ++ p.held) } := by
      simp only [append, Memory.backend, Tables.backend, hmemory, htables]
    have hback : ∀ r' ∈ back res, Sound p.memory p.tables ledger r' := by
      intro r' hr'
      rcases hres with rfl | ⟨e, rfl⟩
      · rw [List.mem_singleton.1 hr']
        exact hs
      · cases hr'
    rw [hp]
    exact ⟨ledger, inv_held (inv_held hi hback) hback⟩

/-! ## Every step keeps it -/

theorem step_inv (hi : p.Inv ledger) {p' : Twins} (h : p.Step p') : ∃ ledger', p'.Inv ledger' := by
  cases h with
  | fresh session member hsession hmember =>
    refine ⟨ledger, inv_hold hi ⟨known_new _ _ session member, fun _ => ?_⟩⟩
    rw [Bool.and_eq_true]
    exact ⟨hsession, hmember⟩
  | @found session member r hr =>
    have hfind : p.memory.shelf.find session member = some r := by
      rcases hr with hr | hr
      · exact Except.ok.inj hr
      · exact Except.ok.inj ((Tables.find_eq hi.same session member).symm.trans hr)
    exact ⟨ledger, inv_hold hi (sound_found hi hfind)⟩
  | @listed member sessions rs hrs =>
    have hmemory : (Store.memory p.memory).Shows p.memory.shelf := rfl
    have htables : (Store.tables p.tables).Shows p.memory.shelf := hi.same
    refine ⟨ledger, inv_held hi fun r hr => ?_⟩
    have hfind : ∃ session, p.memory.shelf.find session member = some r := by
      rcases hrs with hrs | hrs
      · exact Store.find_of_findAll hmemory hrs hr
      · exact Store.find_of_findAll htables hrs hr
    obtain ⟨session, hfind⟩ := hfind
    exact sound_found hi hfind
  | @changed r r' c is hr hc =>
    have hold := hi.held r hr
    obtain ⟨e, rfl, -⟩ := follows_of_change hold.toSound (Command.change_of_transition hc)
    exact ⟨ledger, inv_hold hi ⟨known_add hold.toKnown e, hold.parents⟩⟩
  | appended hr hf => exact inv_append hi (hi.held _ hr) hf

theorem inv_of_reach (h : Reach p) : ∃ ledger, p.Inv ledger := by
  induction h with
  | @start m t hm ht =>
    have hshelf : m.shelf = .empty := hm
    have hrep : t.Represents m.shelf := by
      rw [hshelf]
      exact Store.shows_of_blank ht
    have hbalanced : m.shelf.Balanced [] := by
      rw [hshelf]
      exact Shelf.balanced_empty
    exact ⟨[], hbalanced, (fun _ _ i r hr => by cases hr), hrep, (fun r hr => by cases hr)⟩
  | step _ hs ih =>
    obtain ⟨ledger, hi⟩ := ih
    exact step_inv hi hs

/-- A member, a session that stands alone and nothing stored. -/
def alone : Tables where
  members := ⟨1, [(1, "ada")]⟩
  courses := .empty
  sessions := ⟨7, [(7, ⟨none, "algebra", morning⟩)]⟩
  courseRoles := []
  systemRoles := []
  lastRecord := 0
  headers := []
  entries := []

/-- A memory and tables that began with nothing stored answer alike, whatever they have been asked in
    between and whatever their clients make of the answers. -/
theorem alike_of_reach (h : Reach p) : p.Alike := by
  obtain ⟨ledger, hi⟩ := inv_of_reach h
  refine ⟨fun session member => Tables.find_eq hi.same session member, fun member sessions hfew => ?_,
    fun r hr hf => ?_⟩
  · obtain ⟨rs, hrs, hiff⟩ := Tables.findAll_eq hi.same member hfew
    exact ⟨rs, p.memory.shelf.findAll member sessions, hrs, rfl, hiff⟩
  · rcases append_cases hi (hi.held r hr) hf with
      ⟨-, -, hmemory, t', htables, -⟩ | ⟨res, notes, notes', -, hmemory, htables⟩
    · simp only [Memory.backend, Tables.backend, hmemory, htables]
      rfl
    · simp only [Memory.backend, Tables.backend, hmemory, htables]
      rfl

/-- The tables turn away a copy that was stored before, as the memory does. -/
theorem alike_of_reach_stale : ∃ p : Twins, Reach p ∧ p.Alike ∧ ∃ r ∈ p.held, p.Fits r ∧
    (Tables.backend (.append r) p.tables).result = .error (.conflict 0 1) := by
  have hstart : Reach ⟨⟨school, .empty⟩, alone, []⟩ := .start rfl ⟨rfl, rfl, rfl⟩
  have hfresh := Reach.step hstart (.fresh 7 1 rfl rfl)
  have htransition : Command.Transition (.new 7 1) [.time morning] ((Record.new 7 1).add (.checkedIn morning))
      (.checkIn 7 1) := ⟨morning, rfl, rfl⟩
  have hchanged := Reach.step hfresh (.changed List.mem_cons_self htransition)
  have hfits : ∀ p : Twins, p.tables.lastRecord < Tables.lastNumber →
      p.Fits ((Record.new 7 1).add (.checkedIn morning)) := fun _ hnumber => ⟨by decide, by decide, fun _ => hnumber⟩
  have hsaved := Reach.step hchanged (.appended List.mem_cons_self (hfits _ (by decide)))
  have halike := alike_of_reach hsaved
  have hheld : (Record.new 7 1).add (.checkedIn morning) ∈
      (append ⟨⟨school, .empty⟩, alone, [(Record.new 7 1).add (.checkedIn morning), .new 7 1]⟩
        ((Record.new 7 1).add (.checkedIn morning))).held :=
    List.mem_append_right _ (List.mem_append_right _ List.mem_cons_self)
  have hagain := hfits (append ⟨⟨school, .empty⟩, alone, [(Record.new 7 1).add (.checkedIn morning), .new 7 1]⟩
    ((Record.new 7 1).add (.checkedIn morning))) (by decide)
  exact ⟨_, hsaved, halike, _, hheld, hagain, (halike.append _ hheld hagain).trans rfl⟩

end Twins

end Rollbook
