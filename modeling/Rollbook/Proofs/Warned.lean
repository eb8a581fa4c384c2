import Rollbook.Proofs.Alike
/-
  Rollbook.Proofs.Warned — who is told of a conflict.

  A store that turns an append away because of its version is to say so in the log, so
  that somebody who only reads the log sees who was too late. A memory does: it notes one
  warning for every conflict that it answers with and none otherwise, whether the record
  has anything to add or not.

  Tables do the same for records that have events to add, whichever of their two checks of
  the header turns them away. An append that has nothing to add is answered before either
  of these, by a look at the version alone, and its conflict goes unnoticed
  (`exists_unwarned_of_reach`). That is the only difference: twins answer alike, and they
  warn alike of every record with something to add (`warned_of_reach`).
-/

namespace Rollbook

open Ledger

variable {σ : Type}

/-- The line that warns of a record that was made from another version than the one found. -/
def Record.warning (r : Record) (found : Version) : Notice := .versionConflict r.session r.member r.version found

/-- The reply to an append notes one warning if it is a conflict, of the two versions that it fails with, and
    nothing if it is none. -/
inductive Reply.Warns (r : Record) (reply : Reply σ Record) : Prop
  | conflict {found : Version} : reply.result = .error (.conflict r.version found) → found ≠ r.version →
      reply.notes = [r.warning found] → (r.warning found).level = .warn → Warns r reply
  | other : (∀ expected found, reply.result ≠ .error (.conflict expected found)) → reply.notes = [] → Warns r reply

/-- The reply to an append notes nothing, and it is a conflict with the version found or nothing was wrong. -/
structure Reply.Silent (r : Record) (found : Version) (reply : Reply σ Record) : Prop where
  result : reply.result = if found = r.version then .ok r else .error (.conflict r.version found)
  notes : reply.notes = []

/-- Replies that say and note the same warn alike. -/
theorem Reply.warns_congr {τ : Type} {r : Record} {reply : Reply σ Record} {reply' : Reply τ Record} (h : reply.Warns r)
    (hresult : reply'.result = reply.result) (hnotes : reply'.notes = reply.notes) : reply'.Warns r := by
  cases h with
  | conflict hconflict hne hwarning hlevel =>
    exact .conflict (hresult.trans hconflict) hne (hnotes.trans hwarning) hlevel
  | other hother hnone =>
    refine .other (fun expected found h => ?_) (hnotes.trans hnone)
    exact hother expected found (hresult.symm.trans h)

namespace Shelf

theorem warns_append (s : Shelf) (r : Record) : (s.append r).Warns r := by
  by_cases hv : s.found r = r.version
  · by_cases hu : r.uncommitted = []
    · rw [append_idle hv hu]
      exact .other (fun _ _ h => nomatch h) rfl
    · rw [append_posted hv hu]
      exact .other (fun _ _ h => nomatch h) rfl
  · rw [append_outdated hv]
    exact .conflict rfl hv rfl rfl

end Shelf

namespace Twins

variable {p : Twins} {ledger : List Record} {r : Record}

/-- What twins note of an append to both. -/
structure Warned (p : Twins) (r : Record) : Prop where
  memory : (Memory.backend (.append r) p.memory).Warns r
  tables : r.uncommitted ≠ [] → (Tables.backend (.append r) p.tables).Warns r
  /-- With events to add both note the same. -/
  same : r.uncommitted ≠ [] → (Tables.backend (.append r) p.tables).notes = (Memory.backend (.append r) p.memory).notes
  /-- With nothing to add tables note nothing, conflict or not. -/
  silent : r.uncommitted = [] → (Tables.backend (.append r) p.tables).Silent r (p.memory.shelf.found r)

theorem warns_memory (m : Memory) (r : Record) : (Memory.backend (.append r) m).Warns r := by
  cases Shelf.warns_append m.shelf r with
  | conflict hresult hne hnotes hlevel => exact .conflict hresult hne hnotes hlevel
  | other hresult hnotes => exact .other hresult hnotes

/-- With events to add, both turn an outdated record away with a warning and store any other without one. -/
theorem replies_same (hi : p.Inv ledger) (hs : Sound p.memory p.tables ledger r) (hf : p.Fits r)
    (hu : r.uncommitted ≠ []) :
    (Tables.backend (.append r) p.tables).result = (Memory.backend (.append r) p.memory).result ∧
      (Tables.backend (.append r) p.tables).notes = (Memory.backend (.append r) p.memory).notes := by
  by_cases hv : p.memory.shelf.found r = r.version
  · obtain ⟨t', htables, -⟩ :=
      Tables.append_posted hi.same hi.balanced hi.ordered hs.toKnown hv hu (fits_of_sound hs hf)
    simp only [Memory.backend, Tables.backend, Shelf.append_posted hv hu, htables]
    exact ⟨rfl, trivial⟩
  · have htables := Tables.append_outdated hi.same hi.balanced hi.ordered hs.toKnown hf.number hv hu hf.short
    simp only [Memory.backend, Tables.backend, Shelf.append_outdated hv, htables]
    exact ⟨rfl, trivial⟩

theorem silent_tables (hi : p.Inv ledger) (hu : r.uncommitted = []) :
    (Tables.backend (.append r) p.tables).Silent r (p.memory.shelf.found r) := by
  have htables := Tables.append_idle hi.same hu
  simp only [Tables.backend, htables]
  split
  · rename_i hv
    exact ⟨(if_pos hv).symm, rfl⟩
  · rename_i hv
    exact ⟨(if_neg hv).symm, rfl⟩

/-- In every state that twins come to, an append notes a warning exactly if it is a conflict, one that names the
    record and both versions; but tables say nothing of a record that has nothing to add. -/
theorem warned_of_reach (h : Reach p) (hr : r ∈ p.held) (hf : p.Fits r) : p.Warned r := by
  obtain ⟨ledger, hi⟩ := inv_of_reach h
  have hmemory := warns_memory p.memory r
  have hsame := replies_same hi (hi.held r hr) hf
  exact ⟨hmemory, fun hu => Reply.warns_congr hmemory (hsame hu).1 (hsame hu).2, fun hu => (hsame hu).2,
    silent_tables hi⟩

/-! ## Copies that were overtaken -/

/-- A check-in that is not stored yet. -/
def arriving : Record := (Record.new 7 1).add (.checkedIn morning)

/-- What comes back when it is stored. -/
def arrived : Record := arriving.stored 1

theorem fits_arriving (hn : p.tables.lastRecord < Tables.lastNumber) : p.Fits arriving :=
  ⟨by decide, by decide, fun _ => hn⟩

/-- It has a number already. -/
theorem fits_arrived (p : Twins) : p.Fits arrived := ⟨by decide, by decide, fun h0 => absurd h0 (by decide)⟩

/-- A check-in was stored and then a check-out. Both records from before the check-out are kept. -/
theorem exists_reach_left : ∃ p : Twins, Reach p ∧ arriving ∈ p.held ∧ arrived ∈ p.held ∧ p.Fits arriving ∧
    (Memory.backend (.append arrived) p.memory).notes = [arrived.warning 2] ∧
    (Tables.backend (.append arrived) p.tables).notes = [] ∧
    (Tables.backend (.append arrived) p.tables).result = .error (.conflict 1 2) ∧
    (Tables.backend (.append arriving) p.tables).result = .error (.conflict 0 2) := by
  let leaving := arrived.add (.checkedOut morning)
  have hleaving : ∀ p : Twins, p.Fits leaving := fun _ => ⟨by decide, by decide, fun h0 => absurd h0 (by decide)⟩
  have hin : Command.Transition (.new 7 1) [.time morning] arriving (.checkIn 7 1) := ⟨morning, rfl, rfl⟩
  have hout : Command.Transition arrived [.time morning] leaving (.checkOut 7 1) := ⟨morning, rfl, rfl⟩
  have hstart : Reach ⟨⟨school, .empty⟩, alone, []⟩ := .start rfl ⟨rfl, rfl, rfl⟩
  have hfresh := Reach.step hstart (.fresh 7 1 rfl rfl)
  have harriving := Reach.step hfresh (.changed List.mem_cons_self hin)
  have harrived := Reach.step harriving (.appended List.mem_cons_self (fits_arriving (by decide)))
  have hchanged := Reach.step harrived (.changed (r := arrived) List.mem_cons_self hout)
  have hleft := Reach.step hchanged (.appended List.mem_cons_self (hleaving _))
  refine ⟨_, hleft, ?_, ?_, fits_arriving (by decide), rfl, rfl, rfl, rfl⟩
  · -- behind both answers of the second append, the check-out and both answers of the first
    exact List.mem_append_right _ (List.mem_append_right _ (List.mem_cons_of_mem _ (List.mem_append_right _
      (List.mem_append_right _ List.mem_cons_self))))
  · exact List.mem_append_right _ (List.mem_append_right _ (List.mem_cons_of_mem _ List.mem_cons_self))

/-- Both twins warn of the copy that has its check-in to add, and only the memory warns of the one that has nothing. -/
theorem warned_of_reach_left : ∃ p : Twins, Reach p ∧ arriving ∈ p.held ∧ p.Fits arriving ∧ p.Warned arriving ∧
    (Tables.backend (.append arriving) p.tables).notes = [arriving.warning 2] ∧ arrived ∈ p.held ∧ p.Fits arrived ∧
    p.Warned arrived ∧ (Memory.backend (.append arrived) p.memory).notes = [arrived.warning 2] := by
  obtain ⟨p, hreach, harriving, harrived, hfits, hnotes, -, -, hresult⟩ := exists_reach_left
  have hwarned := warned_of_reach hreach harriving hfits
  refine ⟨p, hreach, harriving, hfits, hwarned, ?_, harrived, fits_arrived p,
    warned_of_reach hreach harrived (fits_arrived p), hnotes⟩
  cases hwarned.tables (by decide) with
  | conflict hconflict _ hwarning _ =>
    rw [hresult] at hconflict
    cases hconflict
    exact hwarning
  | other hother _ => exact absurd hresult (hother 0 2)

/-- Tables turn away the copy that has nothing to add and warn nobody, where the memory does. -/
theorem exists_unwarned_of_reach : ∃ (p : Twins) (r : Record), Reach p ∧ r ∈ p.held ∧ p.Fits r ∧
    (Tables.backend (.append r) p.tables).result = .error (.conflict 1 2) ∧
    (Memory.backend (.append r) p.memory).notes = [r.warning 2] ∧
    (Tables.backend (.append r) p.tables).notes = [] ∧ ¬ (Tables.backend (.append r) p.tables).Warns r := by
  obtain ⟨p, hreach, -, harrived, -, hwarning, hnone, hresult, -⟩ := exists_reach_left
  refine ⟨p, arrived, hreach, harrived, fits_arrived p, hresult, hwarning, hnone, fun hwarns => ?_⟩
  cases hwarns with
  | conflict _ _ hnotes _ =>
    rw [hnone] at hnotes
    cases hnotes
  | other hother _ => exact hother 1 2 hresult

end Twins

end Rollbook
