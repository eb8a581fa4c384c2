import Mathlib.Data.List.Induction
import Rollbook.Schema.Progress
/-
  Rollbook.Proofs.Migrations — a schema does not remember how it came about.

  Creating a table does nothing when there is one of that name, so a migration that had
  left something behind on its way down would go unnoticed on its way up again, and the
  two schemas would differ. None does. What a migration creates is new to every schema it
  is applied to, since no two names are the same, not even when case is left aside
  (`Separate`). So its way up adds its tables and indexes behind those that are there
  (`applyAll_creations`), and its way down finds them and takes away these and no others
  (`applyAll_removals`).

  A database therefore stands at a number of migrations, the first ones of the list, with
  their schema and no other (`Progress.Stands`). Every command leads from one such place
  to another, wherever it was given (`stands_perform`), and the way there leaves no trace
  (`unmarked_of_commands`).

  The schema is what migrations create. The tables in which the migrator and the engine
  keep account are not of it: they come with the first command and with the first
  numbered table, and stay. So two databases that stand at the same number are the same
  in all respects, unless nothing is applied (`eq_of_stands`).
-/

namespace Rollbook

namespace Schema

/-! ## Names -/

theorem sameName_self (a : String) : sameName a a = true := beq_self_eq_true _

/-- No table and no index of the schema has the name. -/
structure Fresh (s : Schema) (name : String) : Prop where
  views : s.views = []
  tables : ∀ t ∈ s.tables, sameName t.name name = false
  indexes : ∀ i ∈ s.indexes, sameName i.name name = false

variable {s : Schema} {name : String}

theorem hasTable_of_fresh (h : s.Fresh name) : s.hasTable name = false := by
  have htable : s.table? name = none :=
    List.find?_eq_none.2 fun t ht => Bool.not_eq_true _ ▸ h.tables t ht
  unfold hasTable view?
  rw [htable, h.views]
  rfl

theorem index?_of_fresh (h : s.Fresh name) : s.index? name = none :=
  List.find?_eq_none.2 fun i hi => Bool.not_eq_true _ ▸ h.indexes i hi

/-! ## Tables with their indexes -/

/-- A table and the indexes that are created with it. -/
abbrev Part := TableShape × List IndexShape

/-- The schema of these tables and their indexes and of nothing else. -/
def ofParts (parts : List Part) : Schema := ⟨parts.map Prod.fst, [], parts.flatMap Prod.snd⟩

def Part.names (p : Part) : List String := p.1.name :: p.2.map IndexShape.name

/-- The names are all different, and each index is one of its own table. -/
structure Separate (parts : List Part) : Prop where
  names : (parts.flatMap Part.names).Pairwise fun a b => sameName a b = false
  own : ∀ p ∈ parts, ∀ i ∈ p.2, i.table = p.1.name

/-- What creates the parts, one after the other. -/
def creations (parts : List Part) : List Change := parts.flatMap fun p => .createTable p.1 :: p.2.map .createIndex

/-- What takes the parts away again, the last one first. -/
def removals (parts : List Part) : List Change := parts.reverse.map fun p => .dropTable p.1.name

variable {before parts : List Part}

theorem fresh_ofParts (h : ∀ a ∈ parts.flatMap Part.names, sameName a name = false) : (ofParts parts).Fresh name := by
  refine ⟨rfl, fun t ht => ?_, fun i hi => ?_⟩
  · obtain ⟨p, hp, rfl⟩ := List.mem_map.1 ht
    exact h _ (List.mem_flatMap.2 ⟨p, hp, List.mem_cons_self⟩)
  · obtain ⟨p, hp, hin⟩ := List.mem_flatMap.1 hi
    exact h _ (List.mem_flatMap.2 ⟨p, hp, List.mem_cons_of_mem _ (List.mem_map_of_mem hin)⟩)

/-! ### On the way up -/

theorem apply_createTable {t : TableShape} (h : (ofParts before).Fresh t.name) :
    (ofParts before).apply (.createTable t) = .ok (ofParts (before ++ [(t, [])])) := by
  unfold apply addTable
  dsimp only
  rw [hasTable_of_fresh h, index?_of_fresh h]
  simp [ofParts]

/-- An index is added to the table that comes last. -/
theorem apply_createIndex {t : TableShape} {done : List IndexShape} {i : IndexShape} (hown : i.table = t.name)
    (h : (ofParts (before ++ [(t, done)])).Fresh i.name) :
    (ofParts (before ++ [(t, done)])).apply (.createIndex i) = .ok (ofParts (before ++ [(t, done ++ [i])])) := by
  have htable : ((ofParts (before ++ [(t, done)])).table? i.table).isSome = true := by
    refine List.find?_isSome.2 ⟨t, ?_, ?_⟩
    · simp [ofParts]
    · rw [hown]
      exact sameName_self t.name
  obtain ⟨found, hfound⟩ := Option.isSome_iff_exists.1 htable
  unfold apply addIndex
  dsimp only
  rw [hfound, hasTable_of_fresh h, index?_of_fresh h]
  simp [ofParts]

theorem applyAll_cons {s s' : Schema} {c : Change} (h : s.apply c = .ok s') (cs : List Change) :
    s.applyAll (c :: cs) = s'.applyAll cs := by
  unfold applyAll
  rw [List.foldlM_cons, h]
  rfl

theorem applyAll_append {s s' : Schema} {cs : List Change} (h : s.applyAll cs = .ok s') (ds : List Change) :
    s.applyAll (cs ++ ds) = s'.applyAll ds := by
  unfold applyAll at h ⊢
  rw [List.foldlM_append, h]
  rfl

theorem separate_before {after : List Part} (h : Separate (before ++ after)) : Separate before := by
  obtain ⟨hnames, hown⟩ := h
  rw [List.flatMap_append] at hnames
  exact ⟨(List.pairwise_append.1 hnames).1, (List.forall_mem_append.1 hown).1⟩

/-- The names of a table's first indexes come before those of the others. -/
theorem names_split (before : List Part) (t : TableShape) (done rest : List IndexShape) :
    (before ++ [(t, done ++ rest)]).flatMap Part.names =
      (before ++ [(t, done)]).flatMap Part.names ++ rest.map IndexShape.name := by
  simp [Part.names]

theorem applyAll_indexes {t : TableShape} {done rest : List IndexShape}
    (h : Separate (before ++ [(t, done ++ rest)])) :
    (ofParts (before ++ [(t, done)])).applyAll (rest.map .createIndex) =
      .ok (ofParts (before ++ [(t, done ++ rest)])) := by
  induction rest generalizing done with
  | nil =>
    rw [List.append_nil]
    rfl
  | cons i rest ih =>
    have hown : i.table = t.name := h.own (t, done ++ i :: rest) (by simp) i (by simp)
    have hfresh : (ofParts (before ++ [(t, done)])).Fresh i.name := by
      have hnames := h.names
      rw [names_split, List.pairwise_append] at hnames
      exact fresh_ofParts fun a ha => hnames.2.2 a ha i.name List.mem_cons_self
    have hsame : done ++ i :: rest = done ++ [i] ++ rest := by simp
    rw [hsame] at h ⊢
    rw [List.map_cons, applyAll_cons (apply_createIndex hown hfresh)]
    exact ih h

/-- New parts are created behind those that are there. -/
theorem applyAll_creations (h : Separate (before ++ parts)) :
    (ofParts before).applyAll (creations parts) = .ok (ofParts (before ++ parts)) := by
  induction parts generalizing before with
  | nil =>
    rw [List.append_nil]
    rfl
  | cons p parts ih =>
    obtain ⟨t, indexes⟩ := p
    have hsplit : before ++ (t, indexes) :: parts = before ++ [(t, [] ++ indexes)] ++ parts := by simp
    have hfresh : (ofParts before).Fresh t.name := by
      have hnames := h.names
      rw [List.flatMap_append, List.pairwise_append] at hnames
      exact fresh_ofParts fun a ha => hnames.2.2 a ha t.name (by simp [Part.names])
    rw [hsplit] at h ⊢
    have htable : (ofParts before).applyAll (.createTable t :: indexes.map .createIndex) =
        .ok (ofParts (before ++ [(t, [] ++ indexes)])) := by
      rw [applyAll_cons (apply_createTable hfresh)]
      exact applyAll_indexes (separate_before h)
    exact (applyAll_append htable (creations parts)).trans (ih h)

/-! ### On the way down -/

theorem apply_dropTable {p : Part} (h : Separate (before ++ [p])) :
    (ofParts (before ++ [p])).apply (.dropTable p.1.name) = .ok (ofParts before) := by
  have hother : ∀ q ∈ before, sameName q.1.name p.1.name = false := by
    intro q hq
    have hnames := h.names
    rw [List.flatMap_append, List.pairwise_append] at hnames
    exact hnames.2.2 _ (List.mem_flatMap.2 ⟨q, hq, List.mem_cons_self⟩) _ (by simp [Part.names])
  obtain ⟨hownBefore, hown⟩ := List.forall_mem_append.1 h.own
  have hthere : ((ofParts (before ++ [p])).table? p.1.name).isSome = true :=
    List.find?_isSome.2 ⟨p.1, by simp [ofParts], sameName_self p.1.name⟩
  have htables : ((before ++ [p]).map Prod.fst).filter (fun t => !sameName t.name p.1.name) = before.map Prod.fst := by
    rw [List.map_append, List.filter_append, List.filter_eq_self.2, List.filter_eq_nil_iff.2, List.append_nil]
    · simp [sameName_self]
    · intro t ht
      obtain ⟨q, hq, rfl⟩ := List.mem_map.1 ht
      simp [hother q hq]
  have hindexes : ((before ++ [p]).flatMap Prod.snd).filter (fun i => !sameName i.table p.1.name) =
      before.flatMap Prod.snd := by
    rw [List.flatMap_append, List.filter_append, List.filter_eq_self.2, List.filter_eq_nil_iff.2, List.append_nil]
    · intro i hi
      rw [hown p List.mem_cons_self i (by simpa using hi), sameName_self]
      exact Bool.false_ne_true
    · intro i hi
      obtain ⟨q, hq, hin⟩ := List.mem_flatMap.1 hi
      rw [hownBefore q hq i hin, hother q hq]
      rfl
  unfold apply dropTable
  dsimp only
  rw [if_pos hthere]
  unfold ofParts
  dsimp only
  rw [htables, hindexes]

/-- The parts that come last can be taken away, and nothing of them stays. -/
theorem applyAll_removals (h : Separate (before ++ parts)) :
    (ofParts (before ++ parts)).applyAll (removals parts) = .ok (ofParts before) := by
  induction parts using List.reverseRecOn with
  | nil =>
    rw [List.append_nil]
    rfl
  | append_singleton parts p ih =>
    rw [← List.append_assoc] at h ⊢
    have hsplit : removals (parts ++ [p]) = .dropTable p.1.name :: removals parts := by simp [removals]
    rw [hsplit, applyAll_cons (apply_dropTable h)]
    exact ih (separate_before h)

/-! ## The migrations -/

def Change.table? : Change → Option TableShape
  | .createTable t => some t
  | _ => none

def Change.index? : Change → Option IndexShape
  | .createIndex i => some i
  | _ => none

/-- The schema that has the tables and indexes which the migrations create, and nothing else. -/
def ofMigrations (ms : List Migration) : Schema where
  tables := ms.flatMap fun m => m.up.filterMap Change.table?
  views := []
  indexes := ms.flatMap fun m => m.up.filterMap Change.index?

theorem filterMap_table? (parts : List Part) : (creations parts).filterMap Change.table? = parts.map Prod.fst := by
  induction parts with
  | nil => rfl
  | cons p parts ih =>
    have hnone : (p.2.map Change.createIndex).filterMap Change.table? = [] := by
      simp [List.filterMap_map, Function.comp_def, Change.table?]
    show p.1 :: (p.2.map Change.createIndex ++ creations parts).filterMap Change.table? = _
    rw [List.filterMap_append, hnone, ih]
    rfl

theorem filterMap_index? (parts : List Part) : (creations parts).filterMap Change.index? = parts.flatMap Prod.snd := by
  induction parts with
  | nil => rfl
  | cons p parts ih =>
    have hsome : (p.2.map Change.createIndex).filterMap Change.index? = p.2 := by
      simp [List.filterMap_map, Function.comp_def, Change.index?]
    show (p.2.map Change.createIndex ++ creations parts).filterMap Change.index? = _
    rw [List.filterMap_append, hsome, ih]
    rfl

/-- Indexes in front, and the tables behind them with the indexes that follow each. -/
def gather : List Change → List IndexShape × List Part
  | [] => ([], [])
  | .createTable t :: cs => ([], (t, (gather cs).1) :: (gather cs).2)
  | .createIndex i :: cs => (i :: (gather cs).1, (gather cs).2)
  | .dropTable _ :: cs => gather cs

end Schema

open Schema

namespace Migration

/-- The tables that a migration creates, with their indexes. -/
def parts (m : Migration) : List Part := (gather m.up).2

/-- The migration creates tables and indexes, and takes back what it has created. -/
structure Reversible (m : Migration) : Prop where
  up : m.up = creations m.parts
  down : m.down = removals m.parts

/-- What each way down drops is what its way up has created, the last table first. -/
theorem reversible_all : ∀ m ∈ all, m.Reversible := by
  simp only [all, List.forall_mem_cons]
  exact ⟨⟨rfl, rfl⟩, ⟨rfl, rfl⟩, ⟨rfl, rfl⟩, ⟨rfl, rfl⟩, ⟨rfl, rfl⟩, fun m hm => nomatch hm⟩

theorem separate_all : Separate (all.flatMap parts) := ⟨by decide +kernel, by decide +kernel⟩

theorem nodup_names : (all.map Migration.name).Nodup := by decide +kernel

theorem numbered_all : ∀ m ∈ all, m.up.any Progress.createsNumbered = true := by decide +kernel

theorem ofMigrations_eq {ms : List Migration} (h : ∀ m ∈ ms, m.Reversible) :
    ofMigrations ms = ofParts (ms.flatMap parts) := by
  have htables : ∀ m ∈ ms, m.up.filterMap Change.table? = m.parts.map Prod.fst := fun m hm => by
    rw [(h m hm).up, filterMap_table?]
  have hindexes : ∀ m ∈ ms, m.up.filterMap Change.index? = m.parts.flatMap Prod.snd := fun m hm => by
    rw [(h m hm).up, filterMap_index?]
  unfold ofMigrations ofParts
  rw [List.map_flatMap, List.flatMap_assoc, List.flatMap_def, List.flatMap_def, List.flatMap_def, List.flatMap_def,
    List.map_congr_left htables, List.map_congr_left hindexes]

variable {before after : List Migration} {m : Migration}

/-- What a migration of the list creates is new to the schema of those before it. -/
theorem separate_of_split (h : all = before ++ m :: after) : Separate (before.flatMap parts ++ m.parts) ∧
    ofMigrations before = ofParts (before.flatMap parts) ∧
    ofMigrations (before ++ [m]) = ofParts (before.flatMap parts ++ m.parts) := by
  have hall : all = before ++ [m] ++ after := by rw [h, List.append_assoc, List.singleton_append]
  have hreversible : ∀ m' ∈ before ++ [m], m'.Reversible := fun m' hm' =>
    reversible_all m' (hall ▸ List.mem_append_left after hm')
  have hflat : (before ++ [m]).flatMap parts = before.flatMap parts ++ m.parts := by
    rw [List.flatMap_append, List.flatMap_singleton]
  have hseparate := separate_all
  rw [hall, List.flatMap_append] at hseparate
  rw [← hflat]
  exact ⟨separate_before hseparate, ofMigrations_eq (List.forall_mem_append.1 hreversible).1,
    ofMigrations_eq hreversible⟩

theorem mem_of_split (h : all = before ++ m :: after) : m ∈ all := by
  rw [h]
  exact List.mem_append_right before List.mem_cons_self

/-- On its way up a migration adds what it creates to the schema of those before it. -/
theorem applyAll_up (h : all = before ++ m :: after) :
    (ofMigrations before).applyAll m.up = .ok (ofMigrations (before ++ [m])) := by
  obtain ⟨hseparate, hbefore, hwith⟩ := separate_of_split h
  rw [hbefore, hwith, (reversible_all m (mem_of_split h)).up]
  exact applyAll_creations hseparate

/-- On its way down it leaves the schema of those before it. -/
theorem applyAll_down (h : all = before ++ m :: after) :
    (ofMigrations (before ++ [m])).applyAll m.down = .ok (ofMigrations before) := by
  obtain ⟨hseparate, hbefore, hwith⟩ := separate_of_split h
  rw [hbefore, hwith, (reversible_all m (mem_of_split h)).down]
  exact applyAll_removals hseparate

end Migration

/-! ## How far a database was migrated -/

namespace Progress

/-- The first `k` migrations are recorded, and the schema is theirs. Once there are any, the engine keeps the last
    numbers that it has given. -/
structure Stands (p : Progress) (k : Nat) : Prop where
  within : k ≤ 5
  schema : p.schema = ofMigrations (Migration.all.take k)
  names : p.names = (Migration.all.take k).map Migration.name
  recorded : 0 < k → p.recorded = some p.names
  numbering : 0 < k → p.numbering = true

variable {p : Progress} {k : Nat}

theorem stands_new : new.Stands 0 := ⟨Nat.zero_le 5, rfl, rfl, (fun h => nomatch h), fun h => nomatch h⟩

theorem stands_install (h : p.Stands k) : p.install.Stands k := ⟨h.within, h.schema, h.names, fun _ => rfl, h.numbering⟩

/-- The first migrations of the list and the others have no name in common. -/
theorem names_disjoint (k : Nat) : ((Migration.all.take k).map Migration.name).Disjoint
    ((Migration.all.drop k).map Migration.name) := by
  have hnodup := Migration.nodup_names
  rw [← List.take_append_drop k Migration.all, List.map_append] at hnodup
  exact fun n htake hdrop => (List.nodup_append.1 hnodup).2.2 n htake n hdrop rfl

/-- What is applied and what is pending are the two parts of the list. -/
theorem applied_of_stands (h : p.Stands k) : p.applied = Migration.all.take k ∧ p.pending = Migration.all.drop k := by
  have hin : ∀ m ∈ Migration.all.take k, m.name ∈ p.names := fun m hm => h.names ▸ List.mem_map_of_mem hm
  have hout : ∀ m ∈ Migration.all.drop k, m.name ∉ p.names := fun m hm hmem =>
    names_disjoint k (h.names ▸ hmem) (List.mem_map_of_mem hm)
  have hsplit := (List.take_append_drop k Migration.all).symm
  unfold applied pending
  rw [hsplit, List.filter_append, List.filter_append, ← hsplit]
  constructor
  · rw [List.filter_eq_self.2 fun m hm => decide_eq_true (hin m hm),
      List.filter_eq_nil_iff.2 fun m hm => by simpa using hout m hm, List.append_nil]
  · rw [List.filter_eq_nil_iff.2 fun m hm => by simpa using hin m hm,
      List.filter_eq_self.2 fun m hm => decide_eq_true (hout m hm), List.nil_append]

theorem length_applied (h : p.Stands k) : p.applied.length = k := by
  rw [(applied_of_stands h).1, List.length_take]
  exact Nat.min_eq_left h.within

/-! ### One migration -/

theorem exists_next (hk : k < 5) : ∃ m, Migration.all.drop k = m :: Migration.all.drop (k + 1) ∧
    Migration.all.take (k + 1) = Migration.all.take k ++ [m] := by
  have hlt : k < Migration.all.length := hk
  exact ⟨Migration.all[k], List.drop_eq_getElem_cons hlt, (List.take_append_getElem hlt).symm⟩

theorem split_of_drop {m : Migration} (h : Migration.all.drop k = m :: Migration.all.drop (k + 1)) :
    Migration.all = Migration.all.take k ++ m :: Migration.all.drop (k + 1) := by
  rw [← h, List.take_append_drop]

theorem stands_applyUp (h : p.Stands k) {m : Migration} (hk : k < 5)
    (hnext : Migration.all.drop k = m :: Migration.all.drop (k + 1))
    (htake : Migration.all.take (k + 1) = Migration.all.take k ++ [m]) :
    ∃ p', p.applyUp m = .ok p' ∧ p'.Stands (k + 1) := by
  have hsplit := split_of_drop hnext
  have hschema : p.schema.applyAll m.up = .ok (ofMigrations (Migration.all.take (k + 1))) := by
    rw [h.schema, htake]
    exact Migration.applyAll_up hsplit
  refine ⟨⟨ofMigrations (Migration.all.take (k + 1)), some (p.names ++ [m.name]), true⟩, ?_, hk, rfl, ?_, fun _ => rfl,
    fun _ => rfl⟩
  · unfold applyUp
    rw [hschema, Migration.numbered_all m (Migration.mem_of_split hsplit), Bool.or_true]
    rfl
  · show p.names ++ [m.name] = _
    rw [h.names, htake, List.map_append]
    rfl

theorem stands_applyDown (h : p.Stands (k + 1)) {m : Migration}
    (hnext : Migration.all.drop k = m :: Migration.all.drop (k + 1))
    (htake : Migration.all.take (k + 1) = Migration.all.take k ++ [m]) :
    ∃ p', p.applyDown m = .ok p' ∧ p'.Stands k := by
  have hsplit := split_of_drop hnext
  have hschema : p.schema.applyAll m.down = .ok (ofMigrations (Migration.all.take k)) := by
    rw [h.schema, htake]
    exact Migration.applyAll_down hsplit
  have hnames : p.names.filter (fun n => n ≠ m.name) = (Migration.all.take k).map Migration.name := by
    have hother : ∀ n ∈ (Migration.all.take k).map Migration.name, n ≠ m.name := fun n hn hsame =>
      names_disjoint k hn (by rw [hnext, hsame]; exact List.mem_cons_self)
    have hkept := List.filter_eq_self.2 fun n hn => decide_eq_true (hother n hn)
    rw [h.names, htake, List.map_append, List.filter_append, hkept]
    simp
  let left : Progress := ⟨ofMigrations (Migration.all.take k), some (p.names.filter fun n => n ≠ m.name), p.numbering⟩
  refine ⟨left, ?_, Nat.le_of_succ_le h.within, rfl, hnames, fun _ => rfl, fun _ => h.numbering (Nat.succ_pos k)⟩
  unfold applyDown
  rw [hschema]
  rfl

/-! ### Several migrations -/

theorem foldlM_cons_of_ok {σ α : Type} {f : σ → α → Except DbError σ} {s s' : σ} {a : α} (h : f s a = .ok s')
    (as : List α) : (a :: as).foldlM f s = as.foldlM f s' := by
  rw [List.foldlM_cons, h]
  rfl

theorem stands_climb (n : Nat) (h : p.Stands k) :
    ∃ p', ((Migration.all.drop k).take n).foldlM applyUp p = .ok p' ∧ p'.Stands (min 5 (k + n)) := by
  induction n generalizing p k with
  | zero =>
    refine ⟨p, rfl, ?_⟩
    rw [Nat.add_zero, Nat.min_eq_right h.within]
    exact h
  | succ n ih =>
    by_cases hk : k < 5
    · obtain ⟨m, hnext, htake⟩ := exists_next hk
      obtain ⟨p₁, hstep, hstands⟩ := stands_applyUp h hk hnext htake
      obtain ⟨p', hrun, hend⟩ := ih hstands
      refine ⟨p', ?_, by rwa [Nat.add_right_comm] at hend⟩
      rw [hnext, List.take_succ_cons, foldlM_cons_of_ok hstep]
      exact hrun
    · -- there are no more migrations to apply
      obtain rfl : k = 5 := Nat.le_antisymm h.within (Nat.not_lt.1 hk)
      refine ⟨p, rfl, ?_⟩
      rw [Nat.min_eq_left (Nat.le_add_right 5 _)]
      exact h

theorem stands_descend (n : Nat) (h : p.Stands k) :
    ∃ p', ((Migration.all.take k).reverse.take n).foldlM applyDown p = .ok p' ∧ p'.Stands (k - n) := by
  induction n generalizing p k with
  | zero => exact ⟨p, rfl, h⟩
  | succ n ih =>
    cases k with
    | zero =>
      refine ⟨p, rfl, ?_⟩
      rw [Nat.zero_sub]
      exact h
    | succ k =>
      obtain ⟨m, hnext, htake⟩ := exists_next h.within
      obtain ⟨p₁, hstep, hstands⟩ := stands_applyDown h hnext htake
      obtain ⟨p', hrun, hend⟩ := ih hstands
      refine ⟨p', ?_, by rwa [Nat.add_sub_add_right]⟩
      rw [htake, List.reverse_append, List.reverse_singleton, List.singleton_append, List.take_succ_cons,
        foldlM_cons_of_ok hstep]
      exact hrun

/-! ## Commands -/

/-- A command that is given to the migrator. -/
inductive Command where
  | up (count : Option Nat)
  | down (count : Option Nat)
  | refresh
  | reset
  deriving DecidableEq

def perform (p : Progress) : Command → Except DbError Progress
  | .up count => p.up count
  | .down count => p.down count
  | .refresh => p.refresh
  | .reset => p.reset

/-- One command after the other, as far as they go. -/
def performAll (p : Progress) (cs : List Command) : Except DbError Progress := cs.foldlM perform p

/-- How many migrations are applied after the command where there were `k` before it. -/
def Command.reach (k : Nat) : Command → Nat
  | .up (some n) => min 5 (k + n)
  | .up none => 5
  | .down (some n) => k - n
  | .down none => 0
  | .refresh => 5
  | .reset => 0

theorem stands_up (count : Option Nat) (h : p.Stands k) :
    ∃ p', p.up count = .ok p' ∧ p'.Stands ((Command.up count).reach k) := by
  unfold up
  rw [(applied_of_stands h).2]
  cases count with
  | some n => exact stands_climb n (stands_install h)
  | none =>
    have hclimb := stands_climb (5 - k) (stands_install h)
    have hlength : (Migration.all.drop k).length ≤ 5 - k := Nat.le_of_eq List.length_drop
    rw [List.take_of_length_le hlength, Nat.add_sub_cancel' h.within, Nat.min_self] at hclimb
    exact hclimb

theorem stands_down (count : Option Nat) (h : p.Stands k) :
    ∃ p', p.down count = .ok p' ∧ p'.Stands ((Command.down count).reach k) := by
  unfold down
  rw [(applied_of_stands h).1]
  cases count with
  | some n => exact stands_descend n (stands_install h)
  | none =>
    have hdescend := stands_descend k (stands_install h)
    have hlength : (Migration.all.take k).reverse.length ≤ k := by
      rw [List.length_reverse]
      exact List.length_take_le k Migration.all
    rw [List.take_of_length_le hlength, Nat.sub_self] at hdescend
    exact hdescend

/-- Every command leads from one number of migrations to the next one, and none fails. -/
theorem stands_perform (c : Command) (h : p.Stands k) : ∃ p', p.perform c = .ok p' ∧ p'.Stands (c.reach k) := by
  cases c with
  | up count => exact stands_up count h
  | down count => exact stands_down count h
  | reset => exact stands_down none h
  | refresh =>
    obtain ⟨p₁, hdown, hstands⟩ := stands_down none h
    obtain ⟨p', hup, hend⟩ := stands_up none hstands
    refine ⟨p', ?_, hend⟩
    show p.refresh = .ok p'
    unfold refresh
    rw [hdown]
    exact hup

theorem stands_performAll (cs : List Command) (h : p.Stands k) :
    ∃ p', p.performAll cs = .ok p' ∧ p'.Stands (cs.foldl Command.reach k) := by
  induction cs generalizing p k with
  | nil => exact ⟨p, rfl, h⟩
  | cons c cs ih =>
    obtain ⟨p₁, hstep, hstands⟩ := stands_perform c h
    obtain ⟨p', hrun, hend⟩ := ih hstands
    exact ⟨p', (foldlM_cons_of_ok hstep cs).trans hrun, hend⟩

/-! ## No trace of the way -/

/-- Where a database stands says all there is to say about it, except that one where nothing is applied may or may
    not have been asked before. -/
theorem eq_of_stands {p' : Progress} (h : p.Stands k) (h' : p'.Stands k) :
    p'.schema = p.schema ∧ (0 < k → p' = p) := by
  have hschema : p'.schema = p.schema := h'.schema.trans h.schema.symm
  refine ⟨hschema, fun hk => ?_⟩
  have hrecorded : p'.recorded = p.recorded := by rw [h'.recorded hk, h.recorded hk, h'.names, h.names]
  have hnumbering : p'.numbering = p.numbering := (h'.numbering hk).trans (h.numbering hk).symm
  cases p
  cases p'
  cases hschema
  cases hrecorded
  cases hnumbering
  rfl

/-- Whatever commands are given to a new database, none fails, and afterwards the first migrations of the list are
    applied, as many as the commands say, and the others are pending. The schema is that of the applied ones. So it
    is the same after any other commands that lead as far, and a way up that is taken back leaves it as it was. -/
theorem unmarked_of_commands (cs : List Command) :
    ∃ p, new.performAll cs = .ok p ∧
      p.applied = Migration.all.take (cs.foldl Command.reach 0) ∧
      p.pending = Migration.all.drop (cs.foldl Command.reach 0) ∧
      p.schema = ofMigrations p.applied ∧
      (∀ cs' p', new.performAll cs' = .ok p' → p'.applied.length = p.applied.length →
        p'.schema = p.schema ∧ (p.applied ≠ [] → p' = p)) ∧
      ∀ count, ∃ p' p'', p.up count = .ok p' ∧
        p'.down (some (p'.applied.length - p.applied.length)) = .ok p'' ∧
        p''.schema = p.schema ∧ p''.applied = p.applied := by
  obtain ⟨p, hrun, hstands⟩ := stands_performAll cs stands_new
  obtain ⟨happlied, hpending⟩ := applied_of_stands hstands
  have hschema : p.schema = ofMigrations p.applied := by rw [happlied, hstands.schema]
  refine ⟨p, hrun, happlied, hpending, hschema, fun cs' p' hrun' hlength => ?_, fun count => ?_⟩
  · obtain ⟨p₁, hrun₁, hstands'⟩ := stands_performAll cs' stands_new
    obtain rfl : p₁ = p' := Except.ok.inj (hrun₁.symm.trans hrun')
    rw [length_applied hstands, length_applied hstands'] at hlength
    rw [hlength] at hstands'
    obtain ⟨halike, hsame⟩ := eq_of_stands hstands hstands'
    refine ⟨halike, fun hsome => hsame ?_⟩
    rw [← length_applied hstands]
    exact List.length_pos_iff.2 hsome
  · obtain ⟨p', hup, hstands'⟩ := stands_up count hstands
    obtain ⟨p'', hdown, hstands''⟩ := stands_down (some (p'.applied.length - p.applied.length)) hstands'
    have hback : (Command.down (some (p'.applied.length - p.applied.length))).reach
        ((Command.up count).reach (cs.foldl Command.reach 0)) = cs.foldl Command.reach 0 := by
      have hle : cs.foldl Command.reach 0 ≤ (Command.up count).reach (cs.foldl Command.reach 0) := by
        cases count with
        | some n => exact Nat.le_min.2 ⟨hstands.within, Nat.le_add_right _ n⟩
        | none => exact hstands.within
      rw [length_applied hstands, length_applied hstands']
      exact Nat.sub_sub_self hle
    rw [hback] at hstands''
    exact ⟨p', p'', hup, hdown, (eq_of_stands hstands hstands'').1,
      (applied_of_stands hstands'').1.trans happlied.symm⟩

/-- Three steps up, two down and one up again lead where two steps up do. -/
example : new.performAll [.up (some 3), .down (some 2), .up (some 1)] = new.performAll [.up (some 2)] ∧
    (new.performAll [.up (some 2)]).map (fun p => p.schema.tables.map TableShape.name) =
      .ok ["members", "courses", "course_members"] := by
  decide +kernel

end Progress

end Rollbook
