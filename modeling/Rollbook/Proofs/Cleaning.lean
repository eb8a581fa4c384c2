import Rollbook.Proofs.Applying
import Rollbook.Proofs.Migrations
import Rollbook.Proofs.Starting
/-
  Rollbook.Proofs.Cleaning — what was prepared is taken away again.

  To prepare a database makes folders and one file, which is where the path leads
  (`of_prepare`). No folder is lost after that, so a later run finds the file there: one
  with `clean` takes it away and no other (`undone_of_clean`), and one with `fresh` makes
  it anew with no rows in it, as a plain run after `clean` would (`renewed_of_fresh`). That
  the log is opened in between makes no difference, even if the log was what was deleted
  (`starts_deleted`).

  All that takes a path that is read as it is (`Faithful`). The path of another setting
  need not be that of the file that is opened, which then stays (`exists_left_by_clean`).
-/

namespace Rollbook

namespace Installer

open Disk

variable {path : String} {d d' d₁ : Disk} {c : Contents} {x q : Place}

/-! ## Deleting -/

theorem deleteFile_of_absent (h : d.isThere (Path.ofText path) = false) :
    deleteFile path d = ⟨[.nothingToDelete path], .ok (), d⟩ := by
  unfold deleteFile
  rw [h]
  rfl

theorem deleteFile_of_resolve (h : d.resolve (Path.ofText path) = .ok (x, some (.file c))) :
    deleteFile path d = ⟨[.deleted path], .ok (), d.remove x⟩ := by
  unfold deleteFile
  rw [if_pos (isThere_of_resolve h)]
  unfold removeFile
  rw [h]
  rfl

/-- Deleting takes a file away, or there is none. -/
theorem of_deleteFile (h : (deleteFile path d).result = .ok ()) :
    d.isThere (Path.ofText path) = false ∧ (deleteFile path d).disk = d ∨
      ∃ x c, d.resolve (Path.ofText path) = .ok (x, some (.file c)) ∧ (deleteFile path d).disk = d.remove x := by
  cases hthere : d.isThere (Path.ofText path) with
  | false => exact .inl ⟨rfl, by rw [deleteFile_of_absent hthere]⟩
  | true =>
    unfold deleteFile at h
    rw [hthere, if_pos rfl] at h
    cases hremove : d.removeFile (Path.ofText path) with
    | error e => rw [hremove] at h; cases h
    | ok d' =>
      obtain ⟨x, c, hresolve, -⟩ := of_removeFile hremove
      exact .inr ⟨x, c, hresolve, by rw [deleteFile_of_resolve hresolve]⟩

theorem retains_deleteFile (hd : d.Grounded) (h : (deleteFile path d).result = .ok ()) :
    d.Retains (deleteFile path d).disk := by
  rcases of_deleteFile h with ⟨-, hdisk⟩ | ⟨x, c, hresolve, hdisk⟩
  · rw [hdisk]
    exact .refl d
  · rw [hdisk]
    exact retains_removed hd (of_resolve_file hd hresolve).2.2.1

/-! ## Preparing -/

/-- The locator of the path opens the file at a place. -/
def Opens (path : String) (d : Disk) (x : Place) : Prop :=
  ∃ f d', d.openLocator (locatorOf path) = .ok (.file f, d') ∧ f.place = x

/-- There is one place that is opened for a path, and only if a file keeps the database. -/
theorem place_of_opens (hpath : Faithful path) (hmark : '?' ∉ path.toList) (h : Opens path d x) :
    ¬ IsPassing path ∧ x = (Path.ofText path).names.foldl lead (d.base (Path.ofText path)) := by
  obtain ⟨f, d', hopen, rfl⟩ := h
  rcases exists_place_of_opened hpath hmark hopen with ⟨-, ⟨writable, hc⟩, -⟩ | ⟨hfile, q, hc⟩
  · cases hc
  · rw [hc] at hopen
    cases hc
    exact ⟨hfile, place_of_enginePlace (of_opens hpath hmark hopen).2.2.2.1⟩

/-- A database was prepared in the file at a place, to which the path leads, and if there was no such file it was one
    without content at first. It can be opened again. -/
def Prepared (path : String) (q : Place) (d d' : Disk) : Prop :=
  ∃ d₁ c, d.Extends d₁ ∧ d₁.resolve (Path.ofText path) = .ok (q, some (.file c)) ∧
    (d.sight q = .nothing → c = .text "") ∧ Works q (·.applyAll (Migration.all.flatMap (·.up))) d₁ d' ∧ Opens path d' q

/-- Preparing makes folders, or a database in one file. -/
theorem of_prepare (hd : d.Grounded) (hpath : Faithful path) (hmark : '?' ∉ path.toList)
    (h : (prepare path d).result = .ok ()) : IsPassing path ∧ d.Extends (prepare path d).disk ∨
      ¬ IsPassing path ∧ ∃ q, Prepared path q d (prepare path d).disk := by
  obtain ⟨hmake, happly⟩ := result_of_andThen h
  obtain ⟨hextends, hfolder⟩ := @extends_of_makeFolder path d hd
  obtain ⟨c, d₁, hopen⟩ := openLocator_of_applySchema happly
  obtain ⟨hresult, hdisk⟩ := applySchema_of_openLocator hopen
  have hd' := hextends.retains.grounded hd
  have hprepare : (prepare path d).disk = _ := (andThen_of_ok _ hmake).2.trans hdisk
  rw [hprepare]
  rcases exists_place_of_opened hpath hmark hopen with ⟨hpassing, ⟨writable, rfl⟩, rfl⟩ | ⟨hfile, q, rfl⟩
  · rw [disk_applySteps_passing]
    exact .inl ⟨hpassing, hextends⟩
  · obtain ⟨hgrown, hleads, c, hresolve, hnew⟩ := resolve_of_opened hd' hpath hmark (hfolder hmake) hopen
    have hd₁ := hgrown.retains.grounded hd'
    have hq : d₁.sight q = .file c := (of_resolve_file hd₁ hresolve).2.2.1
    rw [happly] at hresult
    have hworks := works_of_applySteps hd₁ hq hresult.symm
    refine .inr ⟨hfile, q, d₁, c, hextends.trans hgrown, hresolve, fun hfree => ?_, hworks, ?_⟩
    · -- the file is new, or there was nothing but what making the folder left there
      rcases hextends.sight q with hsame | ⟨-, hmade | hmade⟩
      · exact hnew (hsame.trans hfree)
      · rw [hgrown.retains.folder q hmade] at hq
        cases hq
      · rw [hgrown.file hmade] at hq
        cases hq
        rfl
    · have hagain := openLocator_again hd' hpath hmark hopen hleads (hgrown.retains.trans hworks.retains)
      exact ⟨_, _, hagain.1 hworks.file, rfl⟩

namespace Prepared

theorem retains (h : Prepared path q d d') : d.Retains d' := by
  obtain ⟨d₁, c, hextends, -, -, hworks, -⟩ := h
  exact hextends.retains.trans hworks.retains

theorem resolve (h : Prepared path q d d') (hd : d.Grounded) :
    ∃ c, d'.sight q = .file c ∧ d'.resolve (Path.ofText path) = .ok (q, some (.file c)) := by
  obtain ⟨d₁, c, hextends, hresolve, -, hworks, -⟩ := h
  obtain ⟨c', hc'⟩ := hworks.file
  have hthere := hworks.retains.resolve (hextends.retains.grounded hd) hresolve
  rw [file?_of_sight hc'] at hthere
  exact ⟨c', hc', hthere⟩

theorem database {db : Database} (h : Prepared path q d d') (hx : d'.sight x = .file (.database db)) :
    x = q ∨ d.sight x = .file (.database db) := by
  obtain ⟨d₁, c, hextends, -, -, hworks, -⟩ := h
  exact (hworks.database x db hx).imp_right hextends.database

theorem opens (h : Prepared path q d d') : Opens path d' q := by
  obtain ⟨d₁, c, -, -, -, -, hopens⟩ := h
  exact hopens

theorem place_eq (h : Prepared path q d d') (hpath : Faithful path) (hmark : '?' ∉ path.toList) (hx : Opens path d' x) :
    x = q :=
  (place_of_opens hpath hmark hx).2.trans (place_of_opens hpath hmark h.opens).2.symm

/-- A database that was not there yet has all tables and no rows. -/
theorem rows (h : Prepared path q d d') (hd : d.Grounded) (hfree : d.sight q = .nothing) :
    d'.sight q = .file (.database ⟨Schema.ofMigrations Migration.all, .empty⟩) := by
  obtain ⟨d₁, c, hextends, hresolve, hnew, hworks, -⟩ := h
  have hq := (of_resolve_file (hextends.retains.grounded hd) hresolve).2.2.1
  have hall : Schema.empty.applyAll (Migration.all.flatMap (·.up)) = .ok (Schema.ofMigrations Migration.all) := rfl
  obtain ⟨schema, c', happly, hc', hkeeps⟩ := hworks.keeps c .empty hq (.inr ⟨hnew hfree, rfl⟩)
  rw [show (Database.empty).schema = Schema.empty from rfl, hall] at happly
  cases happly
  rcases hkeeps with rfl | ⟨-, hempty⟩
  · exact hc'
  · have hnone : (Schema.ofMigrations Migration.all).tables = [] := congrArg (fun db => db.schema.tables) hempty
    exact absurd hnone (by decide)

end Prepared

/-! ## Taking it away -/

variable {env : Environment} {s : Settings}

/-- What is left of a database after it was prepared and cleaned away: no database that was made, nothing at the place that
    is opened for the path, and every other file. -/
structure Undone (path : String) (before prepared cleaned : Disk) : Prop where
  kept : IsPassing path ∨ ∃ x, Opens path prepared x
  made : ∀ x db, prepared.node? x = some (.file (.database db)) → before.node? x ≠ some (.file (.database db)) →
    cleaned.node? x = none
  opened : ∀ x, Opens path prepared x → (∃ c, prepared.node? x = some (.file c)) ∧ cleaned.node? x = none
  rest : ∀ x c, prepared.node? x = some (.file c) → ¬ Opens path prepared x → cleaned.node? x = some (.file c)

/-- What was prepared in a file is at the place where it is looked for, whatever was added since. -/
theorem undone_of_prepared {before : Disk} (hd : d.Grounded) (hpath : Faithful path) (hmark : '?' ∉ path.toList)
    (hbefore : before.Extends d) (h : Prepared path q d d') (hmore : d'.Extends d₁) :
    Undone path before d' (deleteFile path d₁).disk := by
  obtain ⟨c, hc, hresolve⟩ := h.resolve hd
  have hd' := h.retains.grounded hd
  have hthere := hmore.retains.resolve hd' hresolve
  rw [file?_of_sight (hmore.file hc)] at hthere
  rw [deleteFile_of_resolve hthere]
  have hsight := sight_removed (hmore.retains.grounded hd') (hmore.file hc)
  have hgone : (d₁.remove q).node? q = none := Sight.of_eq_nothing.1 (by rw [← Disk.sight, hsight, if_pos rfl])
  refine ⟨.inr ⟨q, h.opens⟩, fun x db hx hno => ?_, fun x hx => ?_, fun x c' hx hno => ?_⟩
  · rcases h.database (Sight.of_eq_file.2 hx) with rfl | hold
    · exact hgone
    · exact absurd (file?_of_sight (hbefore.database hold)) hno
  · rw [h.place_eq hpath hmark hx]
    exact ⟨⟨c, file?_of_sight hc⟩, hgone⟩
  · refine file?_of_sight ?_
    rw [hsight, if_neg fun hxq : x = q => hno (by rw [hxq]; exact h.opens)]
    exact hmore.file (Sight.of_eq_file.2 hx)

/-- The same of a database that no file keeps, as long as no file has its name. -/
theorem undone_of_passing {before : Disk} (hpath : Faithful path) (hmark : '?' ∉ path.toList) (hpassing : IsPassing path)
    (hbefore : before.Extends d) (hfree : d.isThere (Path.ofText path) = false) :
    Undone path before d (deleteFile path d).disk := by
  rw [deleteFile_of_absent hfree]
  refine ⟨.inl hpassing, fun x db hx hno => ?_, fun x hx => ?_, fun x c hx _ => hx⟩
  · exact absurd (file?_of_sight (hbefore.database (Sight.of_eq_file.2 hx))) hno
  · exact absurd hpassing (place_of_opens hpath hmark hx).1

/-- A run with `clean` takes away what a plain run prepared. -/
theorem undone_of_clean (hd : d.Grounded) (hsettings : settings? d env = .ok s) (hpath : Faithful (pathOf s.database))
    (hplain : (run [] d env).ending = .success) (hagain : settings? (run [] d env).disk env = .ok s)
    (hpassing : IsPassing (pathOf s.database) →
      (run [] d env).disk.isThere (Path.ofText (pathOf s.database)) = false)
    (hclean : (run ["clean"] (run [] d env).disk env).ending = .success) :
    Undone (pathOf s.database) d (run [] d env).disk (run ["clean"] (run [] d env).disk env).disk := by
  have hrun : ∀ arguments d', run arguments d' env = work arguments d' env := fun _ _ => run_eq_work hplain
  have hmark := Locator.mark_not_mem_pathOf s.database
  rw [hrun [] d] at hplain hagain hpassing hclean ⊢
  rw [hrun] at hclean ⊢
  obtain ⟨d₁, hstart⟩ := starts_of_success hd hsettings hplain
  obtain ⟨hresult, hdisk⟩ := work_of_starts hd hstart []
  rw [perform_plain] at hresult hdisk
  rw [hdisk] at hagain hpassing hclean ⊢
  have hbefore := (hstart.extends hd).1
  have hd₁ := hbefore.retains.grounded hd
  rcases of_prepare hd₁ hpath hmark (hresult.1 hplain) with ⟨hmemory, hextends⟩ | ⟨-, q, hprepared⟩
  · -- the log is still there, so the second start changes nothing
    have hd₂ := hextends.retains.grounded hd₁
    obtain ⟨x, c, hlog, hsame, -⟩ := starts_again hd hstart hextends.retains hagain
    have hstart₂ := hsame ⟨c, hextends.file (of_resolve_file hd₁ hlog).2.2.1⟩
    obtain ⟨-, hdisk₂⟩ := work_of_starts hd₂ hstart₂ ["clean"]
    rw [hdisk₂, perform_clean]
    exact undone_of_passing hpath hmark hmemory (hbefore.trans hextends) (hpassing hmemory)
  · have hd₂ := hprepared.retains.grounded hd₁
    obtain ⟨d₃, hstart₂⟩ := starts_of_success hd₂ hagain hclean
    obtain ⟨-, hdisk₂⟩ := work_of_starts hd₂ hstart₂ ["clean"]
    rw [hdisk₂, perform_clean]
    exact undone_of_prepared hd₁ hpath hmark hbefore hprepared (hstart₂.extends hd₂).1

/-! ## Preparing anew -/

theorem hasFolder_of_resolve (hd : d.Grounded) (h : d.resolve (Path.ofText path) = .ok (x, some (.file c))) :
    HasFolder path d := by
  obtain ⟨hlegible, hno, -, before, name, z, hnames, hname, hwalk, hz, -⟩ := of_resolve_file hd h
  obtain ⟨r, name', hr, hnames', -, hbase, hsize⟩ := Path.exists_parent hno (hname.parts_ne_nil hnames)
  obtain ⟨hsame, -⟩ := List.append_inj' (hnames'.symm.trans hnames) rfl
  intro r' hr'
  rw [hr] at hr'
  cases hr'
  cases hempty : r.isEmpty with
  | true => exact .inl rfl
  | false =>
    refine .inr ((isFolder_iff hd).2 ⟨⟨?_, hempty, Nat.le_trans hsize hlegible.size⟩, z, ?_, hz⟩)
    · have hnul := hlegible.nul
      rw [hnames', List.any_append, Bool.or_eq_false_iff] at hnul
      exact hnul.1
    · rw [hsame]
      have hstart : d.base r = d.base (Path.ofText path) := by
        unfold Disk.base Path.absolute
        rw [hbase]
      rw [hstart]
      exact hwalk

theorem HasFolder.retains (h : HasFolder path d) (hd : d.Grounded) (hretains : d.Retains d') : HasFolder path d' :=
  fun r hr => (h r hr).imp_right (hretains.isFolder hd)

/-- Work that went well and changed nothing makes no difference. -/
theorem andThen_done (next : Disk → Work) (d : Disk) : (⟨[], .ok (), d⟩ : Work).andThen next = next d := rfl

theorem prepare_of_hasFolder (h : HasFolder path d) : prepare path d = applySchema path d := by
  rw [prepare, makeFolder_of_hasFolder h, andThen_done]

/-- Where the folder of a path is there, the path leads to the same place as it does later. -/
theorem leadsTo_of_hasFolder (hd : d.Grounded) (hno : (Path.ofText path).folder = false) (hfolder : HasFolder path d)
    (h : d'.LeadsTo (Path.ofText path) q) (hcurrent : d'.current = d.current) : d.LeadsTo (Path.ofText path) q := by
  have ⟨before, name, z, hnames, hname, _⟩ := h
  obtain ⟨r, name', hr, hnames', -, hbase, -⟩ := Path.exists_parent hno (hname.parts_ne_nil hnames)
  obtain ⟨-, hlast⟩ := List.append_inj' (hnames'.symm.trans hnames) rfl
  cases hlast
  obtain ⟨z', hwalk, hz'⟩ := walk_of_hasFolder hd hfolder hr hbase
  have hleads : d.LeadsTo (Path.ofText path) (z' ++ [name]) := ⟨r.names, name, z', hnames', hname, hwalk, hz', rfl⟩
  rwa [h.place_unique hleads hcurrent]

/-- What is opened at a place is the same whether it is made there or was made before. -/
theorem openLocator_put {before : Disk} {conn : Connection} (hd : before.Grounded) (hpath : Faithful path)
    (hmark : '?' ∉ path.toList) (hfile : ¬ IsPassing path) (hfolder : HasFolder path before)
    (hleads : before.LeadsTo (Path.ofText path) x) (hopen : before.openLocator (locatorOf path) = .ok (conn, d'))
    (hold : before.Retains d) (hfree : d.sight x = .nothing) :
    let put := d.put x (.file (.text ""))
    d.openLocator (locatorOf path) = .ok (openAt x, put) ∧ put.openLocator (locatorOf path) = .ok (openAt x, put) := by
  rcases exists_place_of_opened hpath hmark hopen with ⟨hpassing, -⟩ | ⟨-, q, rfl⟩
  · exact absurd hpassing hfile
  obtain ⟨-, hq, -⟩ := resolve_of_opened hd hpath hmark hfolder hopen
  obtain rfl : q = x := hq.place_unique hleads rfl
  have hparent := (hold.leadsTo hleads).parent
  have hput : d.Extends (d.put q (.file (.text ""))) := .put hleads.ne_nil hparent hfree (.inr rfl)
  have hthere : (d.put q (.file (.text ""))).sight q = .file (.text "") := by
    rw [sight_put hleads.ne_nil hparent (by rw [hfree]; simp) (Node.isLeaf_file _), if_pos rfl]
    rfl
  exact ⟨(openLocator_again hd hpath hmark hopen hleads hold).2 hfree,
    (openLocator_again hd hpath hmark hopen hleads (hold.trans hput.retains)).1 ⟨_, hthere⟩⟩

/-- Preparing does not tell a database that is gone from one without content, once its folder is there. -/
theorem prepare_put (hd : d.Grounded) (hpath : Faithful path) (hmark : '?' ∉ path.toList) (hfile : ¬ IsPassing path)
    (hfolder : HasFolder path d) (hleads : d.LeadsTo (Path.ofText path) x) (hfree : d.sight x = .nothing) :
    let put := d.put x (.file (.text ""))
    ((prepare path put).result = .ok () ↔ (prepare path d).result = .ok ()) ∧
      ((prepare path d).result = .ok () → (prepare path put).disk = (prepare path d).disk) := by
  have hput : d.Extends (d.put x (.file (.text ""))) := .put hleads.ne_nil hleads.parent hfree (.inr rfl)
  have hback : (d.put x (.file (.text ""))).Retains d := by
    refine ⟨rfl, fun y hy => ?_⟩
    rw [sight_put hleads.ne_nil hleads.parent (by rw [hfree]; simp) (Node.isLeaf_file _)] at hy
    split at hy
    · cases hy
    · exact hy
  have hfolder' := hfolder.retains hd hput.retains
  dsimp only
  rw [prepare_of_hasFolder hfolder, prepare_of_hasFolder hfolder']
  -- whichever of the two is opened, both are, and the same then happens to the same file
  have hsame : ∀ before, before.Grounded → HasFolder path before → before.LeadsTo (Path.ofText path) x →
      before.Retains d → (applySchema path before).result = .ok () →
      (applySchema path (d.put x (.file (.text "")))).result = (applySchema path d).result ∧
        (applySchema path (d.put x (.file (.text "")))).disk = (applySchema path d).disk := by
    intro before hbefore hthere hleads' hold happly
    obtain ⟨conn, d', hopen⟩ := openLocator_of_applySchema happly
    obtain ⟨hgone, hempty⟩ := openLocator_put hbefore hpath hmark hfile hthere hleads' hopen hold hfree
    obtain ⟨hresult, hdisk⟩ := applySchema_of_openLocator hgone
    obtain ⟨hresult', hdisk'⟩ := applySchema_of_openLocator hempty
    exact ⟨hresult'.trans hresult.symm, hdisk'.trans hdisk.symm⟩
  refine ⟨⟨fun h => ?_, fun h => ?_⟩, fun h => (hsame d hd hfolder hleads (.refl d) h).2⟩
  · have hd' := hput.retains.grounded hd
    exact (hsame _ hd' hfolder' (hput.retains.leadsTo hleads) hback h).1.symm.trans h
  · exact (hsame d hd hfolder hleads (.refl d) h).1.trans h

/-- What was deleted is gone, and so is a database that was prepared elsewhere until then only if its folder was. -/
theorem sight_deleteFile (hd : d.Grounded)
    (hback : ".." ∈ (Path.ofText path).names → HasFolder path d) (hdelete : (deleteFile path d).result = .ok ())
    (h : Prepared path q (deleteFile path d).disk d') : (deleteFile path d).disk.sight q = .nothing := by
  have hretains := retains_deleteFile hd hdelete
  have hd₂ := hretains.grounded hd
  rcases of_deleteFile hdelete with ⟨habsent, hdisk⟩ | ⟨x, c, hresolve, hdisk⟩
  · -- there was nothing to delete: whatever is at that place would have been found under the path
    rw [hdisk] at h ⊢
    obtain ⟨d₁, c, hextends, hresolve, -⟩ := h
    obtain ⟨hlegible, hno, -, hleads⟩ := of_resolve_file (hextends.retains.grounded hd) hresolve
    by_contra hthere
    have hleads' : d.LeadsTo (Path.ofText path) q := by
      by_cases hdots : ".." ∈ (Path.ofText path).names
      · exact leadsTo_of_hasFolder hd hno (hback hdots) hleads hextends.current
      · exact hleads.of_sight hextends.current hdots hthere
    have hfound := resolve_of_leadsTo hd hlegible hno hleads'
    unfold isThere at habsent
    rw [hfound] at habsent
    cases hnode : d.node? q with
    | none => exact hthere (Sight.of_eq_nothing.2 hnode)
    | some n =>
      rw [hnode] at habsent
      cases habsent
  · -- the path leads to one place, before and after
    have hx := of_resolve_file hd hresolve
    obtain rfl : q = x := by
      obtain ⟨c', -, hresolve'⟩ := h.resolve hd₂
      have hleads := (of_resolve_file (h.retains.grounded hd₂) hresolve').2.2.2
      exact hleads.place_unique hx.2.2.2 (h.retains.current.trans hretains.current)
    rw [hdisk, sight_removed hd hx.2.2.1, if_pos rfl]

/-- What is prepared after that has no rows. -/
theorem rows_of_deleted (hd : d.Grounded) (hpath : Faithful path) (hmark : '?' ∉ path.toList)
    (hback : ".." ∈ (Path.ofText path).names → HasFolder path d) (hdelete : (deleteFile path d).result = .ok ())
    (hprepare : (prepare path (deleteFile path d).disk).result = .ok ())
    (hx : Opens path (prepare path (deleteFile path d).disk).disk x) :
    (prepare path (deleteFile path d).disk).disk.node? x =
      some (.file (.database ⟨Schema.ofMigrations Migration.all, .empty⟩)) := by
  have hd₂ := (retains_deleteFile hd hdelete).grounded hd
  rcases of_prepare hd₂ hpath hmark hprepare with ⟨hmemory, -⟩ | ⟨-, q, hprepared⟩
  · exact absurd hmemory (place_of_opens hpath hmark hx).1
  · rw [hprepared.place_eq hpath hmark hx]
    exact file?_of_sight (hprepared.rows hd₂ (sight_deleteFile hd hback hdelete hprepared))

/-- A run with `fresh` is a run with `clean` and a plain one after it, and there are no rows in the database that it
    leaves. -/
structure Renewed (path : String) (before : Disk) (fresh clean again : Outcome) : Prop where
  success : fresh.ending = .success ↔ clean.ending = .success ∧ again.ending = .success
  files : fresh.ending = .success → fresh.disk = again.disk
  kept : fresh.ending = .success → IsPassing path ∨ ∃ x, Opens path fresh.disk x
  rows : fresh.ending = .success → (".." ∈ (Path.ofText path).names → HasFolder path before) → ∀ x,
    Opens path fresh.disk x → fresh.disk.node? x = some (.file (.database ⟨Schema.ofMigrations Migration.all, .empty⟩))

/-- After the database was deleted, a plain run prepares it as going on does, though its log may have been the file that
    was deleted. -/
theorem starts_deleted (hd : d.Grounded) (hstart : Starts d env s d₁) (hpath : Faithful (pathOf s.database))
    (hdelete : (deleteFile (pathOf s.database) d₁).result = .ok ())
    (hagain : settings? (deleteFile (pathOf s.database) d₁).disk env = .ok s)
    (hpassing : IsPassing (pathOf s.database) →
      (deleteFile (pathOf s.database) d₁).disk.isThere (Path.ofText s.logFile) = true) :
    let d₂ := (deleteFile (pathOf s.database) d₁).disk
    ∃ d₃, Starts d₂ env s d₃ ∧
      ((prepare (pathOf s.database) d₃).result = .ok () ↔ (prepare (pathOf s.database) d₂).result = .ok ()) ∧
      ((prepare (pathOf s.database) d₂).result = .ok () →
        (prepare (pathOf s.database) d₃).disk = (prepare (pathOf s.database) d₂).disk) := by
  have hd₁ := (hstart.extends hd).1.retains.grounded hd
  have hretains := retains_deleteFile hd₁ hdelete
  obtain ⟨x, c, hlog, hold, hnew⟩ := starts_again hd hstart hretains hagain
  obtain ⟨-, -, hx, hleads⟩ := of_resolve_file hd₁ hlog
  dsimp only
  rcases of_deleteFile hdelete with ⟨-, hdisk⟩ | ⟨y, c', hresolve, hdisk⟩
  · rw [hdisk] at hold ⊢
    exact ⟨d₁, hold ⟨c, hx⟩, .rfl, fun _ => rfl⟩
  have hgone := sight_removed hd₁ (of_resolve_file hd₁ hresolve).2.2.1
  rw [← hdisk] at hgone
  by_cases hsame : x = y
  · -- the log was deleted
    subst hsame
    have hfree : (deleteFile (pathOf s.database) d₁).disk.sight x = .nothing := by rw [hgone, if_pos rfl]
    have hfile : ¬ IsPassing (pathOf s.database) := by
      intro hmemory
      have hthere := hpassing hmemory
      unfold isThere at hthere
      rw [hretains.resolve hd₁ hlog, Sight.of_eq_nothing.1 hfree] at hthere
      cases hthere
    have hfolder := (hasFolder_of_resolve hd₁ hresolve).retains hd₁ hretains
    have hleads' := hretains.leadsTo (of_resolve_file hd₁ hresolve).2.2.2
    have hmark := Locator.mark_not_mem_pathOf s.database
    exact ⟨_, hnew hfree, prepare_put (hretains.grounded hd₁) hpath hmark hfile hfolder hleads' hfree⟩
  · -- another file was deleted, so the log is there
    refine ⟨_, hold ⟨c, ?_⟩, .rfl, fun _ => rfl⟩
    rw [hgone, if_neg hsame, hx]

/-- A run with `fresh` does what one with `clean` and a plain one after it do. -/
theorem renewed_of_fresh (hd : d.Grounded) (hsettings : settings? d env = .ok s) (hpath : Faithful (pathOf s.database))
    (hagain : settings? (run ["clean"] d env).disk env = .ok s)
    (hpassing : IsPassing (pathOf s.database) →
      (run ["clean"] d env).disk.isThere (Path.ofText s.logFile) = true) :
    Renewed (pathOf s.database) d (run ["fresh"] d env) (run ["clean"] d env) (run [] (run ["clean"] d env).disk env) := by
  have hmark := Locator.mark_not_mem_pathOf s.database
  by_cases hsome : (run ["fresh"] d env).ending = .success ∨ (run ["clean"] d env).ending = .success
  · have hrun : ∀ arguments d', run arguments d' env = work arguments d' env := fun _ _ =>
      hsome.elim run_eq_work run_eq_work
    rw [hrun ["fresh"], hrun ["clean"]] at hsome
    rw [hrun ["clean"]] at hagain hpassing
    rw [hrun ["fresh"], hrun ["clean"], hrun []]
    obtain ⟨d₁, hstart⟩ : ∃ d₁, Starts d env s d₁ :=
      hsome.elim (starts_of_success hd hsettings) (starts_of_success hd hsettings)
    obtain ⟨hfresh, hdisk⟩ := work_of_starts hd hstart ["fresh"]
    obtain ⟨hclean, hdisk'⟩ := work_of_starts hd hstart ["clean"]
    rw [perform_fresh] at hfresh hdisk
    rw [perform_clean] at hclean hdisk'
    have hdelete := hsome.elim (fun h => (result_of_andThen (hfresh.1 h)).1) hclean.1
    obtain ⟨hresult, hthen⟩ := andThen_of_ok (prepare (pathOf s.database)) hdelete
    rw [hresult] at hfresh
    rw [hthen] at hdisk
    rw [hdisk'] at hagain hpassing ⊢
    have hd₁ := (hstart.extends hd).1.retains.grounded hd
    have hd₂ := (retains_deleteFile hd₁ hdelete).grounded hd₁
    obtain ⟨d₃, hstart₂, hsuccess, hsame⟩ := starts_deleted hd hstart hpath hdelete hagain hpassing
    obtain ⟨hplain, hdisk₃⟩ := work_of_starts hd₂ hstart₂ []
    rw [perform_plain] at hplain hdisk₃
    refine ⟨?_, fun h => ?_, fun h => ?_, fun h hback x hx => ?_⟩
    · rw [hfresh, hplain, hsuccess]
      exact (and_iff_right (hclean.2 hdelete)).symm
    · rw [hdisk, hdisk₃, hsame (hfresh.1 h)]
    · rw [hdisk]
      exact (of_prepare hd₂ hpath hmark (hfresh.1 h)).imp (·.1) fun ⟨_, q, hprepared⟩ => ⟨q, hprepared.opens⟩
    · rw [hdisk] at hx ⊢
      have hback' := fun hdots => (hback hdots).retains hd (hstart.extends hd).1.retains
      exact rows_of_deleted hd₁ hpath hmark hback' hdelete (hfresh.1 h) hx
  · rw [not_or] at hsome
    exact ⟨⟨fun h => absurd h hsome.1, fun h => absurd h.1 hsome.2⟩, fun h => absurd h hsome.1, fun h => absurd h hsome.1,
      fun h => absurd h hsome.1⟩

/-- What a plain run and one with `clean` after it leave, and what one with `fresh` does, for a path that is read as it is
    and runs that read the same settings. For a database that no file keeps, there must be no file of its name to be
    deleted, or at least it must not be the log. -/
theorem undone_and_renewed (hd : d.Grounded) (hsettings : settings? d env = .ok s) (hpath : Faithful (pathOf s.database)) :
    ((run [] d env).ending = .success → (run ["clean"] (run [] d env).disk env).ending = .success →
      settings? (run [] d env).disk env = .ok s →
      (IsPassing (pathOf s.database) → (run [] d env).disk.isThere (Path.ofText (pathOf s.database)) = false) →
      Undone (pathOf s.database) d (run [] d env).disk (run ["clean"] (run [] d env).disk env).disk) ∧
    (settings? (run ["clean"] d env).disk env = .ok s →
      (IsPassing (pathOf s.database) → (run ["clean"] d env).disk.isThere (Path.ofText s.logFile) = true) →
      Renewed (pathOf s.database) d (run ["fresh"] d env) (run ["clean"] d env)
        (run [] (run ["clean"] d env).disk env)) :=
  ⟨fun hplain hclean hagain hpassing => undone_of_clean hd hsettings hpath hplain hagain hpassing hclean,
    fun hagain hpassing => renewed_of_fresh hd hsettings hpath hagain hpassing⟩

/-! ## Two settings -/

/-- Settings that no file of variables adds to, where the folder of the log is there. -/
theorem settings?_of_hasFolder (hfile : Program.findFrom d (Path.ofText ".env") d.current (d.current.length + 1) = none)
    (hfolder : HasFolder (Settings.ofEnvironment env).logFile d) : settings? d env = .ok (Settings.ofEnvironment env) := by
  have hload : (Program.start d env).loadFile ".env" = (.ok (), Program.start d env) := by
    unfold Program.loadFile
    dsimp only [Program.start]
    rw [hfile]
  unfold settings? Program.init
  rw [hload]
  show (Program.start d env).readSettings.1 = _
  rw [readSettings_start]
  dsimp only
  rw [makeFolder_of_hasFolder hfolder]

variable {setting : String}

/-- An environment that sets the database, and the settings with nothing else set. -/
def withDatabase (setting : String) : Environment := .ofPairs [("DATABASE_URL", setting)]

def settingsOf (setting : String) : Settings := ⟨"attendance-core", "info", "logs/attendance.log", setting⟩

/-- A working folder with the log in it and perhaps more. -/
structure IsLogged (d : Disk) : Prop where
  alone : Program.findFrom d (Path.ofText ".env") d.current (d.current.length + 1) = none
  folder : HasFolder "logs/attendance.log" d
  log : ∃ x c, d.resolve (Path.ofText "logs/attendance.log") = .ok (x, some (.file c))

/-- Where there is a log already a run starts without a change. -/
theorem IsLogged.starts (h : IsLogged d) (hsettings : Settings.ofEnvironment (withDatabase setting) = settingsOf setting) :
    Starts d (withDatabase setting) (settingsOf setting) d := by
  obtain ⟨x, c, hlog⟩ := h.log
  have hfolder : HasFolder (settingsOf setting).logFile d := h.folder
  have hmake := makeFolder_of_hasFolder hfolder
  rw [← hsettings] at hfolder
  refine ⟨?_, by rw [hmake], ?_⟩
  · rw [settings?_of_hasFolder h.alone hfolder, hsettings]
  · rw [hmake]
    exact openForAppend_of_resolve hlog

def logged : Disk :=
  ⟨.folder [("work", .folder [("logs", .folder [("attendance.log", .file (.text ""))])])], ["work"]⟩

/-- The same with a new database in the working folder. -/
def keeping (name : String) : Disk :=
  logged.put ["work", name] (.file (.database ⟨Schema.ofMigrations Migration.all, .empty⟩))

theorem grounded_logged : logged.Grounded := rfl

theorem isLogged : IsLogged logged := by
  refine ⟨rfl, fun r hr => ?_, _, _, rfl⟩
  cases hr
  exact .inr rfl

/-- The setting spells a path, under which a file of the working folder is opened. -/
structure Makes (setting path name : String) : Prop where
  threads : (withDatabase setting).get? threadsVariable = none
  settings : Settings.ofEnvironment (withDatabase setting) = settingsOf setting
  spelled : pathOf setting = path
  folder : HasFolder path logged
  opened : logged.openLocator (locatorOf path) =
    .ok (openAt ["work", name], logged.put ["work", name] (.file (.text "")))
  grounded : (keeping name).Grounded
  kept : IsLogged (keeping name)

namespace Makes

variable {name : String}

/-- A run where there is a log. -/
theorem run_of_isLogged (h : Makes setting path name) (hd : d.Grounded) (hlogged : IsLogged d) (arguments : List String) :
    let w := perform (.ofArguments arguments) path d
    ((run arguments d (withDatabase setting)).ending = .success ↔ w.result = .ok ()) ∧
      (run arguments d (withDatabase setting)).disk = w.disk := by
  have hrun : run arguments d (withDatabase setting) = work arguments d (withDatabase setting) := by
    unfold run
    rw [h.threads]
  rw [hrun, ← h.spelled]
  exact work_of_starts hd (hlogged.starts h.settings) arguments

/-- A plain run, if all steps can be applied. -/
theorem run_plain (h : Makes setting path name) (hsteps : ∃ lines, applySteps 1 Migration.all.length (openAt ["work", name])
      (logged.put ["work", name] (.file (.text ""))) Migration.all = ⟨lines, .ok (), keeping name⟩) :
    (run [] logged (withDatabase setting)).ending = .success ∧
      (run [] logged (withDatabase setting)).disk = keeping name := by
  obtain ⟨hsuccess, hdisk⟩ := h.run_of_isLogged grounded_logged isLogged []
  obtain ⟨hresult, hafter⟩ := applySchema_of_openLocator h.opened
  obtain ⟨lines, hsteps⟩ := hsteps
  rw [perform_plain, prepare_of_hasFolder h.folder, hresult, hsteps] at hsuccess
  rw [perform_plain, prepare_of_hasFolder h.folder, hafter, hsteps] at hdisk
  exact ⟨hsuccess.2 rfl, hdisk⟩

end Makes

namespace Queried

/-! A locator with parameters, for a file in the working folder. -/

theorem faithful : Faithful "x.db" := ⟨rfl, by decide, by decide, .inr rfl, by decide⟩

theorem makes : Makes "sqlite://x.db?mode=rwc" "x.db" "x.db" := by
  have htarget : Locator.target? (locatorOf "x.db") = .ok (.file "x.db" ⟨.create, false, .many, none⟩) := by
    unfold Locator.target?
    rw [OpenOptions.ofLocator?_locatorOf (by decide), Locator.bare_of_absent (by decide)]
    rfl
  refine ⟨rfl, rfl, rfl, fun r hr => ?_, ?_, rfl, rfl, fun r hr => ?_, _, _, rfl⟩
  · cases hr
    exact .inl rfl
  · rw [Disk.openLocator_of_target htarget]
    rfl
  · cases hr
    exact .inr rfl

theorem run_plain : (run [] logged (withDatabase "sqlite://x.db?mode=rwc")).ending = .success ∧
    (run [] logged (withDatabase "sqlite://x.db?mode=rwc")).disk = keeping "x.db" :=
  makes.run_plain ⟨_, rfl⟩

theorem clean_logged : (run ["clean"] logged (withDatabase "sqlite://x.db?mode=rwc")).ending = .success ∧
    (run ["clean"] logged (withDatabase "sqlite://x.db?mode=rwc")).disk = logged := by
  obtain ⟨hsuccess, hdisk⟩ := makes.run_of_isLogged grounded_logged isLogged ["clean"]
  exact ⟨hsuccess.2 rfl, hdisk⟩

theorem clean_keeping : (run ["clean"] (keeping "x.db") (withDatabase "sqlite://x.db?mode=rwc")).ending = .success :=
  (makes.run_of_isLogged makes.grounded makes.kept ["clean"]).1.2 rfl

end Queried

theorem undone_and_renewed_queried :
    let env := withDatabase "sqlite://x.db?mode=rwc"
    let prepared := (run [] logged env).disk
    let cleaned := run ["clean"] logged env
    (run [] logged env).ending = .success ∧ (run ["clean"] prepared env).ending = .success ∧
      (run ["fresh"] logged env).ending = .success ∧
      Undone "x.db" logged prepared (run ["clean"] prepared env).disk ∧
      Renewed "x.db" logged (run ["fresh"] logged env) cleaned (run [] cleaned.disk env) := by
  obtain ⟨hplain, hprepared⟩ := Queried.run_plain
  obtain ⟨hclean, hcleaned⟩ := Queried.clean_logged
  have hsettings := (isLogged.starts Queried.makes.settings).settings
  have hagain := (Queried.makes.kept.starts Queried.makes.settings).settings
  have hfile : ¬ IsPassing "x.db" := by
    unfold IsPassing
    decide
  obtain ⟨hundone, hrenewed⟩ := undone_and_renewed grounded_logged hsettings Queried.faithful
  dsimp only
  rw [hcleaned] at hrenewed ⊢
  rw [hprepared] at hundone ⊢
  have hboth := hrenewed hsettings fun hpassing => absurd hpassing hfile
  exact ⟨hplain, Queried.clean_keeping, hboth.success.2 ⟨hclean, hplain⟩,
    hundone hplain Queried.clean_keeping hagain fun hpassing => absurd hpassing hfile, hboth⟩

namespace Escaped

/-! The name of the database has an escape. -/

theorem makes : Makes "a%20b.db" "a%20b.db" "a b.db" := by
  have htarget : Locator.target? (locatorOf "a%20b.db") = .ok (.file "a b.db" ⟨.create, false, .many, none⟩) := by
    unfold Locator.target?
    rw [OpenOptions.ofLocator?_locatorOf (by decide), Locator.bare_of_absent (by decide)]
    rfl
  refine ⟨rfl, rfl, rfl, fun r hr => ?_, ?_, rfl, rfl, fun r hr => ?_, _, _, rfl⟩
  · cases hr
    exact .inl rfl
  · rw [Disk.openLocator_of_target htarget]
    rfl
  · cases hr
    exact .inr rfl

theorem run_plain : (run [] logged (withDatabase "a%20b.db")).ending = .success ∧
    (run [] logged (withDatabase "a%20b.db")).disk = keeping "a b.db" :=
  makes.run_plain ⟨_, rfl⟩

theorem clean_keeping : (run ["clean"] (keeping "a b.db") (withDatabase "a%20b.db")).ending = .success ∧
    (run ["clean"] (keeping "a b.db") (withDatabase "a%20b.db")).disk = keeping "a b.db" := by
  obtain ⟨hsuccess, hdisk⟩ := makes.run_of_isLogged makes.grounded makes.kept ["clean"]
  exact ⟨hsuccess.2 rfl, hdisk⟩

end Escaped

/-- A database that a plain run made is still there after one with `clean`. -/
theorem exists_left_by_clean : ∃ (setting : String) (d : Disk) (x : Place) (db : Database),
    let env := withDatabase setting
    let prepared := (run [] d env).disk
    (run [] d env).ending = .success ∧ (run ["clean"] prepared env).ending = .success ∧ d.node? x = none ∧
      prepared.node? x = some (.file (.database db)) ∧
      (run ["clean"] prepared env).disk.node? x = some (.file (.database db)) := by
  obtain ⟨hplain, hprepared⟩ := Escaped.run_plain
  obtain ⟨hclean, hcleaned⟩ := Escaped.clean_keeping
  refine ⟨"a%20b.db", logged, ["work", "a b.db"], ⟨Schema.ofMigrations Migration.all, .empty⟩, ?_⟩
  dsimp only
  rw [hprepared, hcleaned]
  exact ⟨hplain, hclean, rfl, rfl, rfl⟩

end Installer

end Rollbook
