import Rollbook.Proofs.Paths
import Rollbook.Installer
/-
  Rollbook.Proofs.Applying — what preparing a database does to the files around it.

  A change is written to the file of the database. Before it, what was left beside the
  file is dealt with, and a journal comes and goes, but all of that bears other names
  (`beside_ne`), takes no folder away and makes no database (`Tidies`). So after any number
  of changes the only file that may hold a database it did not hold before is the one that
  was opened (`Works`), and what it holds are the old rows under the changed schema, none
  if it was new (`Contents.Keeps`).
-/

namespace Rollbook

open Disk

/-! ## Beside the database -/

/-- Nothing happens to the file at a place, no folder is lost and no database appears. -/
structure Tidies (q : Place) (d d' : Disk) : Prop where
  retains : d.Retains d'
  database : ∀ x db, d'.sight x = .file (.database db) → d.sight x = .file (.database db)
  place : d'.sight q = d.sight q

namespace Tidies

variable {q x : Place} {d d' d'' : Disk}

theorem refl (q : Place) (d : Disk) : Tidies q d d := ⟨.refl d, fun _ _ => id, rfl⟩

theorem trans (h : Tidies q d d') (h' : Tidies q d' d'') : Tidies q d d'' :=
  ⟨h.retains.trans h'.retains, fun x db hx => h.database x db (h'.database x db hx), h'.place.trans h.place⟩

/-- A change at another place that makes no database. -/
theorem of_sight {new : Sight} (hcurrent : d'.current = d.current)
    (hsight : ∀ y, d'.sight y = if y = x then new else d.sight y) (hfree : d.sight x ≠ .folder) (hq : x ≠ q)
    (hnew : ∀ db, new ≠ .file (.database db)) : Tidies q d d' := by
  refine ⟨.of_sight hcurrent hsight hfree, fun y db hy => ?_, by rw [hsight, if_neg (Ne.symm hq)]⟩
  rw [hsight] at hy
  split at hy
  · exact absurd hy (hnew db)
  · exact hy

theorem remove (hx : x ≠ []) (hq : x ≠ q) (hfree : d.sight x ≠ .folder) : Tidies q d (d.remove x) :=
  of_sight rfl (sight_remove hx hfree) hfree hq nofun

theorem put {s : String} (hx : x ≠ []) (hq : x ≠ q) (hfree : d.sight x ≠ .folder) (hparent : d.sight x.dropLast = .folder) :
    Tidies q d (d.put x (.file (.text s))) :=
  of_sight rfl (sight_put hx hparent hfree (Node.isLeaf_file (.text s))) hfree hq nofun

end Tidies

namespace OpenFile

variable {f f' : OpenFile} {d d' : Disk} {ending : String} {n : Node} {c : Contents}

theorem beside_ne_nil (f : OpenFile) (ending : String) : f.beside ending ≠ [] := by simp [beside]

theorem beside_ne (hending : ending ≠ "") (hplace : f.place ≠ []) : f.beside ending ≠ f.place := by
  intro h
  have hlast : f.place.getLast hplace ++ ending = f.place.getLast hplace := by
    have hsame := congrArg List.getLast? h
    rw [beside, List.getLast?_concat, List.getLast?_eq_some_getLast hplace, Option.getD_some] at hsame
    exact Option.some.inj hsame
  have hlength := congrArg String.length hlast
  rw [String.length_append] at hlength
  have hzero : ending.length = 0 := by omega
  exact hending (String.length_eq_zero_iff.1 hzero)

theorem sight_of_besideNode? (h : f.besideNode? d ending = some n) : d.sight (f.beside ending) = .of (some n) := by
  unfold besideNode? at h
  rw [Disk.sight, (Option.filter_eq_some_iff.1 h).1]

/-- A folder beside the database is found as such. -/
theorem besideNode?_of_folder (h : d.sight (f.beside ending) = .folder) :
    ∃ entries, f.besideNode? d ending = some (.folder entries) := by
  obtain ⟨entries, hnode⟩ := Sight.of_eq_folder.1 h
  refine ⟨entries, ?_⟩
  unfold besideNode?
  rw [hnode]
  rfl

theorem ne_nil_of_file (hd : d.Grounded) (h : d.sight f.place = .file c) : f.place ≠ [] := by
  intro hnil
  rw [hnil, hd.root] at h
  cases h

theorem tidies_of_takeBack (hplace : f.place ≠ []) : Tidies f.place d (f.takeBack d).2 := by
  have hne : f.beside journalEnding ≠ f.place := beside_ne (by decide) hplace
  unfold takeBack
  dsimp only
  split
  · exact .refl _ d
  · exact .refl _ d
  · rename_i journal hnode
    have hfree : d.sight (f.beside journalEnding) ≠ .folder := by
      rw [sight_of_besideNode? hnode]
      simp [Sight.of]
    have hgone := Tidies.remove (beside_ne_nil f journalEnding) hne hfree
    split
    · split
      · exact hgone
      · exact .refl _ d
    split
    · exact .refl _ d
    split
    · exact hgone
    · exact .refl _ d

theorem tidies_of_takeLog (hplace : f.place ≠ []) (hfile : d.sight f.place = .file c) :
    Tidies f.place d (f.takeLog d).2 ∧ ∀ f', (f.takeLog d).1 = .ok f' → f'.place = f.place := by
  have hlog : f.beside logEnding ≠ f.place := beside_ne (by decide) hplace
  have hshared : f.beside sharingEnding ≠ f.place := beside_ne (by decide) hplace
  have hrefl := Tidies.refl f.place d
  unfold takeLog
  split
  · exact ⟨hrefl, fun f' h => by cases h; rfl⟩
  rename_i log hnode
  have hsight := sight_of_besideNode? hnode
  -- a log beside a database without content is cleared away
  split
  · split
    · exact ⟨hrefl, fun f' h => by cases h⟩
    · exact ⟨.remove (beside_ne_nil f _) hlog (by rw [hsight]; simp [Sight.of]), fun f' h => by cases h; rfl⟩
  split
  · exact ⟨hrefl, fun f' h => by cases h⟩
  rename_i husable
  -- any other is in use from here on, unless sharing is barred, and it is a file
  have hfree : d.sight (f.beside logEnding) ≠ .folder := by
    intro hfolder
    obtain ⟨entries, hentries⟩ := besideNode?_of_folder hfolder
    rw [hnode] at hentries
    cases hentries
    exact husable (.inl rfl)
  split
  · split
    · exact ⟨hrefl, fun f' h => by cases h⟩
    · exact ⟨hrefl, fun f' h => by cases h; rfl⟩
  rename_i hopen
  dsimp only
  split
  · have hgone := Tidies.remove (beside_ne_nil f logEnding) hlog hfree
    refine ⟨?_, fun f' h => by cases h; rfl⟩
    dsimp only
    split
    · -- sharing is not barred, so what goes with the log is no folder either
      rename_i hmany
      refine hgone.trans (.remove (beside_ne_nil f _) hshared fun hfolder => hopen ?_)
      rw [sight_remove (beside_ne_nil f _) hfree] at hfolder
      split at hfolder
      · cases hfolder
      · obtain ⟨entries, hentries⟩ := besideNode?_of_folder hfolder
        simp [isSharingBarred, hmany, hentries, Node.contents?]
    · exact hgone
  · split
    · exact ⟨hrefl, fun f' h => by cases h; rfl⟩
    · rename_i hnot
      refine ⟨.put (beside_ne_nil f _) hshared (fun hfolder => ?_) ?_, fun f' h => by cases h; rfl⟩
      · obtain ⟨entries, hentries⟩ := Sight.of_eq_folder.1 hfolder
        exact hnot entries hentries
      · rw [beside, List.dropLast_concat]
        exact sight_dropLast hplace (by rw [hfile]; simp)

theorem tidies_of_settle (hplace : f.place ≠ []) (hfile : d.sight f.place = .file c) :
    Tidies f.place d (f.settle d).2 ∧ ∀ f', (f.settle d).1 = .ok f' → f'.place = f.place := by
  unfold settle
  split
  · exact ⟨.refl _ d, fun f' h => by cases h; rfl⟩
  have hback := tidies_of_takeBack (d := d) hplace
  split
  · rename_i e d₁ htake
    rw [htake] at hback
    exact ⟨hback, nofun⟩
  · rename_i d₁ htake
    rw [htake] at hback
    obtain ⟨hlog, hsame⟩ := tidies_of_takeLog hplace (hback.place.trans hfile)
    exact ⟨hback.trans hlog, hsame⟩

theorem tidies_of_writeJournal (hplace : f.place ≠ []) (h : f.writeJournal d = .ok d') : Tidies f.place d d' := by
  unfold writeJournal at h
  dsimp only at h
  split at h
  · cases h
    exact .refl _ d
  split at h
  · cases h
  rename_i hnot
  split at h
  · cases h
  cases h
  refine .remove (beside_ne_nil f _) (beside_ne (by decide) hplace) fun hfolder => ?_
  obtain ⟨entries, hentries⟩ := Sight.of_eq_folder.1 hfolder
  exact hnot entries hentries

end OpenFile

/-! ## Changes -/

/-- The contents are those of the database, or there are none and the database is empty. -/
def Contents.Keeps (c : Contents) (db : Database) : Prop := c = .database db ∨ c = .text "" ∧ db = .empty

theorem Contents.Keeps.read {c : Contents} {db : Database} (h : c.Keeps db) : c.read = .ok (db, true) := by
  rcases h with rfl | ⟨rfl, rfl⟩
  · rfl
  · rfl

/-- Work on the database at a place: no folder is lost, a database appears nowhere else, and the schema is changed by
    `change` while the rows stay as they are. -/
structure Works (q : Place) (change : Schema → Except DbError Schema) (d d' : Disk) : Prop where
  retains : d.Retains d'
  database : ∀ x db, d'.sight x = .file (.database db) → x = q ∨ d.sight x = .file (.database db)
  file : ∃ c, d'.sight q = .file c
  keeps : ∀ c db, d.sight q = .file c → c.Keeps db → ∃ schema c', change db.schema = .ok schema ∧
    d'.sight q = .file c' ∧ c'.Keeps { db with schema }

namespace Works

variable {q : Place} {g g' : Schema → Except DbError Schema} {d d' d'' : Disk} {c : Contents}

theorem of_tidies (h : Tidies q d d') (hfile : d.sight q = .file c) : Works q .ok d d' := by
  refine ⟨h.retains, fun x db hx => .inr (h.database x db hx), ⟨c, h.place.trans hfile⟩, fun c db hc hkeeps => ?_⟩
  exact ⟨db.schema, c, rfl, h.place.trans hc, hkeeps⟩

theorem bind (h : Works q g d d') (h' : Works q g' d' d'') : Works q (fun s => (g s).bind g') d d'' := by
  refine ⟨h.retains.trans h'.retains, fun x db hx => ?_, h'.file, fun c db hc hkeeps => ?_⟩
  · rcases h'.database x db hx with hq | hx
    · exact .inl hq
    · exact h.database x db hx
  · obtain ⟨schema, c', hg, hc', hkeeps'⟩ := h.keeps c db hc hkeeps
    obtain ⟨schema', c'', hg', hc'', hkeeps''⟩ := h'.keeps c' _ hc' hkeeps'
    exact ⟨schema', c'', by rw [hg]; exact hg', hc'', hkeeps''⟩

theorem congr (h : Works q g d d') (hg : ∀ s, g s = g' s) : Works q g' d d' := (funext hg : g = g') ▸ h

theorem put {db : Database} (hplace : q ≠ []) (hfile : d.sight q = .file c) (hchange : ∀ db', c.Keeps db' →
      ∃ schema, g db'.schema = .ok schema ∧ db = { db' with schema }) : Works q g d (d.put q (.file (.database db))) := by
  have hsight := sight_put hplace (sight_dropLast hplace (by rw [hfile]; simp)) (by rw [hfile]; simp)
    (Node.isLeaf_file (.database db))
  have hnew : (d.put q (.file (.database db))).sight q = .file (.database db) := by
    rw [hsight, if_pos rfl]
    rfl
  refine ⟨.of_sight rfl hsight (by rw [hfile]; simp), fun x db' hx => ?_, ⟨_, hnew⟩, fun c' db' hc' hkeeps => ?_⟩
  · rw [hsight] at hx
    split at hx
    · exact .inl (by assumption)
    · exact .inr hx
  · rw [hfile] at hc'
    cases hc'
    obtain ⟨schema, hg, hdb⟩ := hchange db' hkeeps
    exact ⟨schema, _, hg, hnew, .inl (by rw [hdb])⟩

end Works

variable {q : Place} {f : OpenFile} {d d' : Disk} {c : Contents} {change : Schema.Change}

theorem OpenFile.works_of_applyChange (hplace : f.place ≠ []) (hfile : d.sight f.place = .file c)
    (h : f.applyChange d change = .ok d') : Works f.place (·.apply change) d d' := by
  have hcontents : ((d.node? f.place).bind Node.contents?).getD (.text "") = c := by
    rw [file?_of_sight hfile]
    rfl
  unfold applyChange at h
  rw [hcontents] at h
  rcases hread : c.read with e | ⟨db, free⟩
  · rw [hread] at h
    cases h
  rw [hread] at h
  change (db.schema.apply change).bind _ = _ at h
  cases happly : db.schema.apply change with
  | error e => rw [happly] at h; cases h
  | ok schema =>
  rw [happly] at h
  -- what the file keeps is what is read from it
  have hold : ∀ db', c.Keeps db' → db' = db := fun db' hkeeps => by
    have hsame := hkeeps.read
    rw [hread] at hsame
    cases hsame
    rfl
  change (if schema = db.schema then _ else _) = _ at h
  split at h
  · rename_i hsame
    cases h
    refine ⟨.refl d, fun x db hx => .inr hx, ⟨c, hfile⟩, fun c' db' hc' hkeeps => ?_⟩
    rw [hfile] at hc'
    cases hc'
    have hdb := hold db' hkeeps
    subst hdb
    exact ⟨schema, c, happly, hfile, by rw [hsame]; exact hkeeps⟩
  split at h
  · cases h
  · cases hjournal : f.writeJournal d with
    | error e => rw [hjournal] at h; cases h
    | ok d₁ =>
    rw [hjournal] at h
    cases h
    have htidies := tidies_of_writeJournal hplace hjournal
    refine ((Works.of_tidies htidies hfile).bind (.put hplace (htidies.place.trans hfile) ?_)).congr fun s => rfl
    intro db' hkeeps
    rw [hold db' hkeeps]
    exact ⟨schema, happly, rfl⟩

namespace Connection

theorem works_of_applyChange {c' : Connection} (hd : d.Grounded) (hfile : d.sight f.place = .file c)
    (h : (Connection.file f).applyChange d change = (.ok (), c', d')) :
    ∃ f', c' = .file f' ∧ f'.place = f.place ∧ Works f.place (·.apply change) d d' := by
  have hplace := f.ne_nil_of_file hd hfile
  obtain ⟨htidies, hsame⟩ := OpenFile.tidies_of_settle hplace hfile
  unfold applyChange at h
  dsimp only at h
  split at h
  · cases h
  rename_i f' d₁ hsettle
  rw [hsettle] at htidies hsame
  have hf' : f'.place = f.place := hsame f' rfl
  split at h
  · cases h
  rename_i d₂ hchange
  cases h
  refine ⟨f', rfl, hf', ?_⟩
  have hfile' : d₁.sight f'.place = .file c := by rw [hf', htidies.place, hfile]
  have hworks := OpenFile.works_of_applyChange (by rw [hf']; exact hplace) hfile' hchange
  rw [hf'] at hworks
  exact ((Works.of_tidies htidies hfile).bind hworks).congr fun s => rfl

theorem works_of_applyChanges {c' : Connection} {changes : List Schema.Change} (hd : d.Grounded)
    (hfile : d.sight f.place = .file c) (h : (Connection.file f).applyChanges d changes = (.ok (), c', d')) :
    ∃ f', c' = .file f' ∧ f'.place = f.place ∧ Works f.place (·.applyAll changes) d d' := by
  induction changes generalizing f d c with
  | nil =>
    cases h
    exact ⟨f, rfl, rfl, .of_tidies (.refl _ _) hfile⟩
  | cons change changes ih =>
    rw [applyChanges] at h
    split at h
    · cases h
    rename_i c₁ d₁ hchange
    obtain ⟨f₁, rfl, hf₁, hworks⟩ := works_of_applyChange hd hfile hchange
    obtain ⟨c₂, hc₂⟩ := hworks.file
    rw [← hf₁] at hc₂
    obtain ⟨f', hf', hplace, hrest⟩ := ih (hworks.retains.grounded hd) hc₂ h
    rw [hf₁] at hrest hplace
    exact ⟨f', hf', hplace, (hworks.bind hrest).congr fun s => rfl⟩

/-- A database that no file keeps is changed without the disk. -/
theorem applyChanges_passing {db : Database} {writable : Bool} {changes : List Schema.Change} {r : Except DbError Unit}
    {c' : Connection} (h : (Connection.passing db writable).applyChanges d changes = (r, c', d')) :
    d' = d ∧ ∃ db', c' = .passing db' writable := by
  induction changes generalizing db with
  | nil =>
    cases h
    exact ⟨rfl, db, rfl⟩
  | cons change changes ih =>
    have hstep : ∃ r db', (Connection.passing db writable).applyChange d change = (r, .passing db' writable, d) := by
      unfold applyChange
      dsimp only
      split
      · exact ⟨_, _, rfl⟩
      split
      · exact ⟨_, _, rfl⟩
      split
      · exact ⟨_, _, rfl⟩
      · exact ⟨_, _, rfl⟩
    obtain ⟨_ | _, db', hstep⟩ := hstep
    · rw [applyChanges, hstep] at h
      cases h
      exact ⟨rfl, db', rfl⟩
    · rw [applyChanges, hstep] at h
      exact ih h

end Connection

namespace Installer

theorem works_of_applySteps {number total : Nat} {ms : List Migration} (hd : d.Grounded)
    (hfile : d.sight f.place = .file c) (h : (applySteps number total (.file f) d ms).result = .ok ()) :
    Works f.place (·.applyAll (ms.flatMap (·.up))) d (applySteps number total (.file f) d ms).disk := by
  induction ms generalizing number f d c with
  | nil => exact .of_tidies (.refl _ d) hfile
  | cons m ms ih =>
    rw [applySteps] at h ⊢
    split at h
    · cases h
    rename_i c₁ d₁ hchanges
    obtain ⟨f₁, rfl, hf₁, hworks⟩ := Connection.works_of_applyChanges hd hfile hchanges
    -- the next step finds the file at the same place
    obtain ⟨c₂, hc₂⟩ := hworks.file
    rw [← hf₁] at hc₂
    have hrest := ih (hworks.retains.grounded hd) hc₂ h
    rw [hf₁] at hrest
    refine (hworks.bind hrest).congr fun s => ?_
    rw [List.flatMap_cons]
    unfold Schema.applyAll
    rw [List.foldlM_append]
    rfl

theorem disk_applySteps_passing {number total : Nat} {ms : List Migration} {db : Database} {writable : Bool} :
    (applySteps number total (.passing db writable) d ms).disk = d := by
  induction ms generalizing number db with
  | nil => rfl
  | cons m ms ih =>
    rw [applySteps]
    rcases hchanges : (Connection.passing db writable).applyChanges d m.up with ⟨_ | _, c', d'⟩
    · obtain ⟨rfl, -⟩ := Connection.applyChanges_passing hchanges
      rfl
    · obtain ⟨rfl, db', rfl⟩ := Connection.applyChanges_passing hchanges
      exact ih

end Installer

end Rollbook
