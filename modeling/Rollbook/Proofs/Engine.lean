import Rollbook.Proofs.Locator
import Rollbook.Proofs.Paths
import Rollbook.Proofs.Utf8
/-
  Rollbook.Proofs.Engine — the system and the engine take a path to the same place.

  The system follows a path through folders that are there, the engine adds up its names
  and asks for the last folder only. What both can follow leads to one place, since two
  dots undo a name in either way (`place_of_enginePlace`). So a database that was opened
  under a path after the folder of the path was made is where the path leads
  (`resolve_of_opened`), if the path is what the driver reads in its locator. That a path
  is read as it is takes more than one might think, and is what `Installer.Faithful` says.
-/

namespace Rollbook

open Text

/-! ## The parent of a path -/

namespace Path

variable {p r : Path}

theorem filter_dropWhile (parts : List String) :
    (parts.dropWhile isBlankPart).filter (fun part => !isBlankPart part) = parts.filter fun part => !isBlankPart part := by
  induction parts with
  | nil => rfl
  | cons part parts ih =>
    by_cases h : isBlankPart part = true
    · rw [List.dropWhile_cons_of_pos h, ih, List.filter_cons_of_neg (by simp [h])]
    · rw [List.dropWhile_cons_of_neg h]

theorem le_foldl_size (n : Nat) (parts : List String) :
    n ≤ parts.foldl (fun size part => size + part.utf8ByteSize) n := by
  induction parts generalizing n with
  | nil => exact Nat.le_refl n
  | cons part parts ih => exact Nat.le_trans (Nat.le_add_right n _) (ih _)

theorem size_le_append {b : Base} {parts more : List String} : size ⟨b, parts⟩ ≤ size ⟨b, parts ++ more⟩ := by
  have hparts := le_foldl_size (parts.foldl (fun size part => size + part.utf8ByteSize) 0) more
  rw [← List.foldl_append] at hparts
  have hlength : parts.length ≤ (parts ++ more).length := by simp
  cases b <;> unfold size <;> dsimp only <;> omega

/-- The path of a file is that of its folder and a name behind it. -/
theorem exists_parent (hfolder : p.folder = false) (hparts : p.parts ≠ []) : ∃ r name, p.parent? = some r ∧
    p.names = r.names ++ [name] ∧ name ≠ "." ∧ r.base = p.base ∧ r.size ≤ p.size := by
  obtain ⟨b, parts⟩ := p
  obtain ⟨front, name, rfl⟩ : ∃ front name, parts = front ++ [name] :=
    ⟨parts.dropLast, parts.getLast hparts, (List.dropLast_concat_getLast hparts).symm⟩
  have hblank : isBlankPart name = false := by simpa [folder] using hfolder
  refine ⟨⟨b, (front.reverse.dropWhile isBlankPart).reverse⟩, name, ?_, ?_, ?_, rfl, ?_⟩
  · unfold parent?
    rw [List.reverse_concat, List.dropWhile_cons_of_neg (by simp [hblank])]
  · unfold names
    dsimp only
    rw [List.filter_append, List.filter_reverse, filter_dropWhile, ← List.filter_reverse, List.reverse_reverse,
      List.append_assoc]
    simp [hblank]
  · rintro rfl
    cases hblank
  · obtain ⟨more, hmore⟩ := List.dropWhile_suffix (l := front.reverse) isBlankPart
    have hfront : front = (front.reverse.dropWhile isBlankPart).reverse ++ more.reverse := by
      rw [← List.reverse_append, hmore, List.reverse_reverse]
    have hsize := @size_le_append b (front.reverse.dropWhile isBlankPart).reverse (more.reverse ++ [name])
    rwa [← List.append_assoc, ← hfront] at hsize

/-- The names of a path are made of its characters. -/
theorem mem_of_mem_splitAt {cs part : List Char} {c mark : Char} (hpart : part ∈ splitAt mark cs) (hc : c ∈ part) :
    c ∈ cs := by
  induction cs generalizing part with
  | nil =>
    rw [splitAt, List.mem_singleton] at hpart
    rw [hpart] at hc
    cases hc
  | cons d ds ih =>
    rw [splitAt] at hpart
    split at hpart
    · rcases List.mem_cons.1 hpart with rfl | hpart
      · cases hc
      · exact .tail d (ih hpart hc)
    · split at hpart
      · rw [List.mem_singleton] at hpart
        rw [hpart, List.mem_singleton] at hc
        exact hc ▸ .head ds
      · rename_i first rest hsplit
        rcases List.mem_cons.1 hpart with rfl | hpart
        · rcases List.mem_cons.1 hc with rfl | hc
          · exact .head ds
          · exact .tail d (ih (hsplit ▸ .head rest) hc)
        · exact .tail d (ih (hsplit ▸ .tail first hpart) hc)

theorem mem_of_mem_names {text name : String} {c : Char} (hname : name ∈ (ofText text).names) (hc : c ∈ name.toList) :
    c = '.' ∨ c ∈ text.toList := by
  have hparts : ∀ part ∈ (ofText text).parts, ∀ c ∈ part.toList, c ∈ text.toList := by
    intro part hpart c hc
    have hsplit : ∀ {cs : List Char}, part ∈ (splitAt '/' cs).map String.ofList → c ∈ cs := by
      intro cs hmem
      obtain ⟨chars, hchars, rfl⟩ := List.mem_map.1 hmem
      rw [String.toList_ofList] at hc
      exact mem_of_mem_splitAt hchars hc
    unfold ofText at hpart
    dsimp only at hpart
    split at hpart
    · rename_i htext
      rw [htext]
      exact .tail _ (hsplit hpart)
    · cases hpart
    · rename_i htext
      rw [htext]
      exact .tail _ (.tail _ (hsplit hpart))
    · exact hsplit hpart
  unfold names at hname
  rcases List.mem_append.1 hname with hdot | hpart
  · split at hdot
    · rw [List.mem_singleton] at hdot
      subst hdot
      exact .inl (List.mem_singleton.1 hc)
    · cases hdot
  · exact .inr (hparts name (List.mem_filter.1 hpart).1 c hc)

end Path

namespace Disk

variable {d d' : Disk} {p : Path} {x y q : Place} {name : String} {names : List String}

/-! ## The engine -/

/-- What a name adds to a place that is a folder. -/
def stepInFolder (x : Place) (name : String) : Except DbError Place :=
  if name = "." then .ok x
  else if name = ".." then .ok x.dropLast
  else if longestDatabasePath ≤ pathSize x + name.utf8ByteSize + 1 then .error .cannotOpen
  else if longestName < name.utf8ByteSize then .error .cannotOpen
  else .ok (x ++ [name])

theorem place_of_stepInFolder (hdot : name ≠ ".") (h : stepInFolder x name = .ok y) :
    y = x.dropLast ∨ IsName name ∧ y = x ++ [name] := by
  unfold stepInFolder at h
  rw [if_neg hdot] at h
  split at h
  · cases h
    exact .inl rfl
  rename_i hdots
  split at h
  · cases h
  split at h
  · cases h
  · cases h
    exact .inr ⟨⟨hdot, hdots, by omega⟩, rfl⟩

theorem engineStep_of_folder (h : d.sight x = .folder) : d.engineStep x name = stepInFolder x name := by
  obtain ⟨entries, hx⟩ := Sight.of_eq_folder.1 h
  unfold engineStep stepInFolder
  rw [hx]

theorem lead_of_engineStep (h : d.engineStep x name = .ok y) : y = lead x name := by
  unfold engineStep at h
  unfold lead
  split at h
  · rw [if_pos (by assumption)]
    cases h
    rfl
  split at h
  · rw [if_neg (by assumption), if_pos (by assumption)]
    cases h
    rfl
  split at h
  · cases h
  rw [if_neg (by assumption), if_neg (by assumption)]
  split at h
  · cases h
  · split at h <;> cases h
    rfl
  · cases h
    rfl

theorem lead_of_foldlM (h : names.foldlM d.engineStep x = .ok y) : y = names.foldl lead x := by
  induction names generalizing x with
  | nil =>
    cases h
    rfl
  | cons name names ih =>
    rw [List.foldlM_cons] at h
    cases hstep : d.engineStep x name with
    | error e => rw [hstep] at h; cases h
    | ok z =>
      rw [hstep] at h
      rw [List.foldl_cons, ← lead_of_engineStep hstep]
      exact ih h

theorem place_of_enginePlace (h : d.enginePlace p = .ok q) : q = p.names.foldl lead (d.base p) := lead_of_foldlM h

/-- Along folders the engine does not look at anything else. -/
theorem foldlM_of_walk (hx : d.sight x = .folder) (h : Walk d.sight x names y) (hy : d.sight y = .folder) :
    names.foldlM d.engineStep x = names.foldlM stepInFolder x := by
  induction h with
  | here => rfl
  | dot _ ih =>
    rw [List.foldlM_cons, List.foldlM_cons, engineStep_of_folder hx]
    exact ih hx hy
  | back _ ih =>
    rw [List.foldlM_cons, List.foldlM_cons, engineStep_of_folder hx]
    exact ih (sight_dropLast_of_folder hx) hy
  | @into x y name names hname hfolder _ ih =>
    rw [List.foldlM_cons, List.foldlM_cons, engineStep_of_folder hx]
    cases hstep : stepInFolder x name with
    | error e => rfl
    | ok z =>
      have hz := lead_of_engineStep ((engineStep_of_folder hx).trans hstep)
      rw [lead_name hname] at hz
      subst hz
      exact ih hfolder hy
  | last _ hno => exact absurd hy hno

/-- The place of a path whose folder is there, where the last name leads on from that folder. -/
theorem enginePlace_of_walk (hd : d.Grounded) (hp : p.names = names ++ [name]) (h : Walk d.sight (d.base p) names y)
    (hy : d.sight y = .folder) :
    d.enginePlace p = (names.foldlM stepInFolder (d.base p)).bind fun x => stepInFolder x name := by
  unfold enginePlace
  rw [hp]
  show List.foldlM d.engineStep (d.base p) (names ++ [name]) = _
  rw [List.foldlM_append, foldlM_of_walk (hd.base p) h hy]
  cases hfold : names.foldlM stepInFolder (d.base p) with
  | error e => rfl
  | ok x =>
    -- the engine can only have come to where the walk ends, so its last step is one from a folder
    have hx : x = y := by
      rw [← foldlM_of_walk (hd.base p) h hy] at hfold
      exact (lead_of_foldlM hfold).trans h.place_eq.symm
    subst hx
    show (d.engineStep x name).bind _ = stepInFolder x name
    rw [engineStep_of_folder hy]
    cases stepInFolder x name <;> rfl

/-! ## Opening -/

/-- Once folders are there, more of them do not matter to the engine. -/
theorem enginePlace_eq (hd : d.Grounded) (h : d.LeadsTo p q) (hretains : d.Retains d') :
    d'.enginePlace p = d.enginePlace p := by
  obtain ⟨before, name, z, hnames, -, hwalk, hz, -⟩ := h
  have hwalk' : Walk d'.sight (d'.base p) before z := by
    rw [hretains.base]
    exact hretains.walk hz hwalk
  rw [enginePlace_of_walk hd hnames hwalk hz,
    enginePlace_of_walk (hretains.grounded hd) hnames hwalk' (hretains.folder z hz), hretains.base]

/-- What is opened is a file, and one that was made for it has no content yet. -/
theorem of_openPlace {manner : Manner} {c : Connection} (hrights : manner.rights = .create)
    (h : d.openPlace q manner = .ok (c, d')) :
    c = .file ⟨q, true, manner.frozen, manner.sharing, false⟩ ∧ d.Extends d' ∧
      ∃ contents, d'.sight q = .file contents ∧ (d.sight q = .nothing → contents = .text "") := by
  unfold openPlace at h
  dsimp only at h
  split at h
  · cases h
  rename_i hplace
  split at h
  · cases h
  have hq : q ≠ [] := fun hq => hplace (.inl hq)
  rw [hrights] at h
  split at h
  · cases h
  · rename_i contents hnode
    cases h
    have hfile : d.sight q = .file contents := Sight.of_eq_file.2 hnode
    exact ⟨rfl, .refl d, contents, hfile, fun hno => by rw [hfile] at hno; cases hno⟩
  · rename_i entries hnode hparent
    cases h
    have hfree : d.sight q = .nothing := Sight.of_eq_nothing.2 hnode
    have hfolder : d.sight q.dropLast = .folder := Sight.of_eq_folder.2 ⟨entries, hparent⟩
    refine ⟨rfl, .put hq hfolder hfree (.inr rfl), .text "", ?_, fun _ => rfl⟩
    rw [sight_put hq hfolder (by rw [hfree]; simp) (Node.isLeaf_file _), if_pos rfl]
    rfl
  · cases h

/-- A place that could be opened once can be opened on any disk that has a file there or the folder for one. -/
theorem openPlace_again {manner : Manner} {c : Connection} {d₂ : Disk} (hrights : manner.rights = .create)
    (hmodel : manner.model = none) (h : d.openPlace q manner = .ok (c, d')) :
    ((∃ c', d₂.sight q = .file c') → d₂.openPlace q manner = .ok (c, d₂)) ∧
      (d₂.sight q = .nothing → d₂.sight q.dropLast = .folder →
        d₂.openPlace q manner = .ok (c, d₂.put q (.file (.text "")))) := by
  obtain ⟨rfl, -⟩ := of_openPlace hrights h
  have hplace : ¬ (q = [] ∨ longestDatabasePath < pathSize q + journalEnding.utf8ByteSize) := by
    intro hno
    unfold openPlace at h
    dsimp only at h
    rw [if_pos hno] at h
    cases h
  constructor
  · rintro ⟨c', hfile⟩
    unfold openPlace
    dsimp only
    rw [if_neg hplace, hmodel, if_neg (by simp), file?_of_sight hfile, hrights]
    rfl
  · intro hfree hfolder
    obtain ⟨entries, hparent⟩ := Sight.of_eq_folder.1 hfolder
    unfold openPlace
    dsimp only
    rw [if_neg hplace, hmodel, if_neg (by simp), Sight.of_eq_nothing.1 hfree, hparent, hrights]
    rfl

end Disk

/-! ## Paths that are read as they are -/

namespace Installer

/-- A path that the driver reads in the installer's locator as it is, and that the system takes for the path of a file:
    it has no percent escapes and no scheme in front, neither the driver's nor the engine's, and it does not end like the
    path of a folder, unless there is nothing to be read. -/
structure Faithful (path : String) : Prop where
  escapes : percentDecode (Utf8.encode path.toList) = Utf8.encode path.toList
  scheme : ¬ Locator.scheme <+: path.toList
  fileScheme : ¬ Opening.fileScheme <+: Utf8.encode path.toList
  file : path = "" ∨ (Path.ofText path).folder = false
  size : (Path.ofText path).size ≤ Disk.longestPath

/-- The path names a database that no file keeps. -/
def IsPassing (path : String) : Prop := path = "" ∨ path = ":memory:"

variable {path : String} {t : Target}

theorem encode_eq_nil (h : Utf8.encode path.toList = []) : path = "" := by
  have hread := Utf8.decodeLossy_encode path.toList
  rw [h] at hread
  exact String.toList_inj.1 hread.symm

theorem encode_inj {cs cs' : List Char} (h : Utf8.encode cs = Utf8.encode cs') : cs = cs' := by
  rw [← Utf8.decodeLossy_encode cs, h, Utf8.decodeLossy_encode]

/-- The opening of a file by its name, without anything said beside it. -/
def openingOf (name : String) : Opening :=
  ⟨Utf8.encode name.toList, Opening.usualFileSystem, ⟨false, some .create⟩, []⟩

theorem eq_openingOf {name : String} {q : Opening} (hscheme : ¬ Opening.fileScheme <+: Utf8.encode name.toList)
    (h : Opening.ofOptions? ⟨name, false, false, true, false, none⟩ = .ok q) :
    '\x00' ∉ name.toList ∧ q = openingOf name := by
  change (if 0 ∈ Utf8.encode name.toList then .error .nulInName
    else Opening.ofName? ⟨false, some .create⟩ (Utf8.encode name.toList)) = _ at h
  split at h
  · cases h
  rename_i hzero
  change (if Opening.fileScheme.isPrefixOf (Utf8.encode name.toList) then _ else _) = _ at h
  rw [if_neg fun hpre => hscheme (List.isPrefixOf_iff_prefix.1 hpre)] at h
  exact ⟨fun hmem => hzero (List.mem_flatMap.2 ⟨_, hmem, by decide⟩), (Except.ok.inj h).symm⟩

theorem target_openingOf {name : String} (h : (openingOf name).target = .ok t) :
    IsPassing name ∧ t = .passing true ∨ ¬ IsPassing name ∧ t = .file name ⟨.create, false, .many, none⟩ := by
  have hpassing : IsPassing name ↔ Utf8.encode name.toList = [] ∨
      Utf8.encode name.toList = Utf8.encode ":memory:".toList := by
    refine or_congr ⟨fun h => h ▸ rfl, encode_eq_nil⟩ ⟨fun h => h ▸ rfl, fun h => ?_⟩
    exact String.toList_inj.1 (encode_inj h)
  unfold Opening.target openingOf at h
  dsimp only at h
  rw [if_neg (by decide)] at h
  split at h
  · rename_i hnone
    cases h
    exact .inl ⟨hpassing.2 (hnone.resolve_left Bool.false_ne_true), rfl⟩
  · rename_i hsome
    rw [if_neg (by decide), Utf8.decodeLossy_encode, String.ofList_toList] at h
    exact .inr ⟨fun h => hsome (.inr (hpassing.1 h)), (Except.ok.inj h).symm⟩

/-- A faithful path is that of the file that is opened. -/
theorem target_of_faithful (hpath : Faithful path) (hmark : '?' ∉ path.toList)
    (h : Locator.target? (locatorOf path) = .ok t) :
    IsPassing path ∧ (∃ writable, t = .passing writable) ∨
      ¬ IsPassing path ∧ '\x00' ∉ path.toList ∧ t = .file path ⟨.create, false, .many, none⟩ := by
  obtain ⟨o, q, ho, hq, ht⟩ := Locator.target?_eq_ok h
  rw [OpenOptions.ofLocator?_locatorOf hmark, Locator.bare_of_absent hpath.scheme] at ho
  unfold OpenOptions.ofName? at ho
  by_cases hmemory : path.toList = ":memory:".toList
  · rw [if_pos hmemory] at ho
    cases ho
    have hopening : q = ⟨Utf8.encode ":memory:".toList, Opening.usualFileSystem, ⟨true, some .create⟩, []⟩ :=
      (Except.ok.inj hq).symm
    subst hopening
    exact .inl ⟨.inr (String.toList_inj.1 hmemory), true, (Except.ok.inj ht).symm⟩
  · rw [if_neg hmemory, hpath.escapes, Utf8.decode?_encode] at ho
    cases ho
    rw [String.ofList_toList] at hq
    obtain ⟨hnul, rfl⟩ := eq_openingOf hpath.fileScheme hq
    exact (target_openingOf ht).imp (fun ⟨hpassing, htarget⟩ => ⟨hpassing, true, htarget⟩)
      fun ⟨hfile, htarget⟩ => ⟨hfile, hnul, htarget⟩

/-! ## Where a database is prepared -/

variable {d d' : Disk} {c : Connection}

/-- The folder of the path is there. -/
def HasFolder (path : String) (d : Disk) : Prop :=
  ∀ r, (Path.ofText path).parent? = some r → r.isEmpty = true ∨ d.isFolder r = true

theorem extends_of_makeFolder (hd : d.Grounded) : d.Extends (makeFolder path d).disk ∧
    ((makeFolder path d).result = .ok () → HasFolder path (makeFolder path d).disk) := by
  unfold makeFolder
  split
  · rename_i hparent
    exact ⟨.refl d, fun _ r hr => by rw [hparent] at hr; cases hr⟩
  · rename_i folder hparent
    obtain ⟨hextends, hfolder⟩ := Disk.extends_of_makeFolders (p := folder) hd
    split
    · rename_i d₁ hmake
      rw [hmake] at hextends hfolder
      refine ⟨hextends, fun _ r hr => ?_⟩
      rw [hparent] at hr
      cases hr
      exact hfolder rfl
    · rename_i e d₁ hmake
      rw [hmake] at hextends
      exact ⟨hextends, nofun⟩

theorem makeFolder_of_hasFolder (h : HasFolder path d) : makeFolder path d = ⟨[], .ok (), d⟩ := by
  unfold makeFolder
  split
  · rfl
  · rename_i folder hparent
    have hmake : d.makeFolders folder = (.ok (), d) := by
      rcases h folder hparent with hempty | hfolder
      · exact Disk.makeFolders_of_isEmpty hempty
      · exact Disk.makeFolders_of_isFolder hfolder
    rw [hmake]

/-- The way to a folder that is there. -/
theorem walk_of_hasFolder {r : Path} (hd : d.Grounded) (h : HasFolder path d)
    (hr : (Path.ofText path).parent? = some r) (hbase : r.base = (Path.ofText path).base) :
    ∃ z, Disk.Walk d.sight (d.base (Path.ofText path)) r.names z ∧ d.sight z = .folder := by
  have hsame : d.base r = d.base (Path.ofText path) := by
    unfold Disk.base Path.absolute
    rw [hbase]
  rw [← hsame]
  rcases h r hr with hempty | hfolder
  · unfold Path.isEmpty at hempty
    have hnames : r.names = [] := by simpa using (Bool.and_eq_true_iff.1 hempty).2
    rw [hnames]
    exact ⟨_, .here, hd.base r⟩
  · obtain ⟨-, z, hwalk, hz⟩ := (Disk.isFolder_iff hd).1 hfolder
    exact ⟨z, hwalk, hz⟩

theorem legible_of_nul (hpath : Faithful path) (hnul : '\x00' ∉ path.toList) {name : String}
    (hname : name ∈ (Path.ofText path).names) : Disk.Path.Legible (Path.ofText path) := by
  refine ⟨?_, ?_, hpath.size⟩
  · rw [Bool.eq_false_iff]
    intro h
    obtain ⟨name, hname, hzero⟩ := List.any_eq_true.1 h
    rcases Path.mem_of_mem_names hname (List.contains_iff_mem.1 hzero) with hdot | hmem
    · cases hdot
    · exact hnul hmem
  · have hsome : (Path.ofText path).names.isEmpty = false := by
      rw [List.isEmpty_eq_false_iff]
      exact List.ne_nil_of_mem hname
    rw [Path.isEmpty, hsome, Bool.and_false]

/-- A place that the engine opens is one that the path leads to, once the folder of the path is there. -/
theorem leadsTo_of_enginePlace {q : Place} (hd : d.Grounded) (hno : (Path.ofText path).folder = false)
    (hfolder : HasFolder path d) (hplace : d.enginePlace (Path.ofText path) = .ok q) (hq : d.sight q ≠ .folder) :
    d.LeadsTo (Path.ofText path) q := by
  by_cases hparts : (Path.ofText path).parts = []
  · -- a path without parts stays where it starts, which is in a folder
    have hstay : (Path.ofText path).names.foldl Disk.lead (d.base (Path.ofText path)) = d.base (Path.ofText path) := by
      unfold Path.names
      rw [hparts]
      split <;> rfl
    have hbase := Disk.place_of_enginePlace hplace
    rw [hstay] at hbase
    exact absurd (hbase ▸ hd.base _) hq
  obtain ⟨r, name, hr, hnames, hdot, hbase, -⟩ := Path.exists_parent hno hparts
  obtain ⟨z, hwalk, hz⟩ := walk_of_hasFolder hd hfolder hr hbase
  have hlast : Disk.stepInFolder z name = .ok q := by
    have hstep := Disk.enginePlace_of_walk hd hnames hwalk hz
    rw [hplace, ← Disk.foldlM_of_walk (hd.base _) hwalk hz] at hstep
    cases hfold : r.names.foldlM d.engineStep (d.base (Path.ofText path)) with
    | error e => rw [hfold] at hstep; cases hstep
    | ok x =>
      rw [hfold, (Disk.lead_of_foldlM hfold).trans hwalk.place_eq.symm] at hstep
      exact hstep.symm
  rcases Disk.place_of_stepInFolder hdot hlast with rfl | ⟨hname, rfl⟩
  · -- two dots at the end lead to a folder
    exact absurd (Disk.sight_dropLast_of_folder hz) hq
  · exact ⟨r.names, name, z, hnames, hname, hwalk, hz, rfl⟩

/-- A faithful path is opened at the place it names. -/
theorem of_opens {q : Place} (hpath : Faithful path) (hmark : '?' ∉ path.toList)
    (hopen : d.openLocator (locatorOf path) = .ok (openAt q, d')) : ¬ IsPassing path ∧ '\x00' ∉ path.toList ∧
      Locator.target? (locatorOf path) = .ok (.file path ⟨.create, false, .many, none⟩) ∧
      d.enginePlace (Path.ofText path) = .ok q ∧ d.openPlace q ⟨.create, false, .many, none⟩ = .ok (openAt q, d') := by
  obtain ⟨t, ht, htarget⟩ := Disk.target?_of_openLocator hopen
  rcases target_of_faithful hpath hmark ht with ⟨-, writable, rfl⟩ | ⟨hfile, hnul, rfl⟩
  · cases htarget
  refine ⟨hfile, hnul, ht, ?_⟩
  change (d.enginePlace (Path.ofText path)).bind (fun q => d.openPlace q _) = _ at htarget
  cases hplace : d.enginePlace (Path.ofText path) with
  | error e => rw [hplace] at htarget; cases htarget
  | ok q' =>
    rw [hplace] at htarget
    obtain ⟨hsame, -⟩ := Disk.of_openPlace rfl htarget
    cases hsame
    exact ⟨rfl, htarget⟩

/-- What is opened for a faithful path. -/
theorem exists_place_of_opened (hpath : Faithful path) (hmark : '?' ∉ path.toList)
    (hopen : d.openLocator (locatorOf path) = .ok (c, d')) :
    IsPassing path ∧ (∃ writable, c = .passing .empty writable) ∧ d' = d ∨ ¬ IsPassing path ∧ ∃ q, c = openAt q := by
  obtain ⟨t, ht, htarget⟩ := Disk.target?_of_openLocator hopen
  rcases target_of_faithful hpath hmark ht with ⟨hpassing, writable, rfl⟩ | ⟨hfile, -, rfl⟩
  · cases htarget
    exact .inl ⟨hpassing, ⟨writable, rfl⟩, rfl⟩
  · change (d.enginePlace (Path.ofText path)).bind (fun q => d.openPlace q _) = _ at htarget
    cases hplace : d.enginePlace (Path.ofText path) with
    | error e => rw [hplace] at htarget; cases htarget
    | ok q =>
      rw [hplace] at htarget
      exact .inr ⟨hfile, q, (Disk.of_openPlace rfl htarget).1⟩

/-- The file that is opened, once the folder of the path is there, is the one that the path leads to. If it was not there it
    is one without content. -/
theorem resolve_of_opened {q : Place} (hd : d.Grounded) (hpath : Faithful path) (hmark : '?' ∉ path.toList)
    (hfolder : HasFolder path d) (hopen : d.openLocator (locatorOf path) = .ok (openAt q, d')) :
    d.Extends d' ∧ d.LeadsTo (Path.ofText path) q ∧
      ∃ c, d'.resolve (Path.ofText path) = .ok (q, some (.file c)) ∧ (d.sight q = .nothing → c = .text "") := by
  obtain ⟨hfile, hnul, -, hplace, hput⟩ := of_opens hpath hmark hopen
  have hno : (Path.ofText path).folder = false := hpath.file.resolve_left fun h => hfile (.inl h)
  obtain ⟨-, hextends, c, hc, hnew⟩ := Disk.of_openPlace rfl hput
  have hretains := hextends.retains
  have hleads : d.LeadsTo (Path.ofText path) q := by
    refine leadsTo_of_enginePlace hd hno hfolder hplace fun hq => ?_
    rw [hretains.folder q hq] at hc
    cases hc
  have hlegible : Disk.Path.Legible (Path.ofText path) := by
    obtain ⟨before, name, -, hnames, -⟩ := hleads
    exact legible_of_nul hpath hnul (hnames ▸ List.mem_append_right _ (List.mem_singleton_self name))
  have hthere := Disk.resolve_of_leadsTo (hretains.grounded hd) hlegible hno (hretains.leadsTo hleads)
  rw [Disk.file?_of_sight hc] at hthere
  exact ⟨hextends, hleads, c, hthere, hnew⟩

/-- What was opened once is opened again where no folder was lost, and is a new file if the old one is gone. -/
theorem openLocator_again {q : Place} {d₂ : Disk} (hd : d.Grounded) (hpath : Faithful path) (hmark : '?' ∉ path.toList)
    (hopen : d.openLocator (locatorOf path) = .ok (openAt q, d')) (hleads : d.LeadsTo (Path.ofText path) q)
    (hretains : d.Retains d₂) :
    ((∃ c, d₂.sight q = .file c) → d₂.openLocator (locatorOf path) = .ok (openAt q, d₂)) ∧
      (d₂.sight q = .nothing → d₂.openLocator (locatorOf path) = .ok (openAt q, d₂.put q (.file (.text "")))) := by
  obtain ⟨-, -, htarget, hplace, hput⟩ := of_opens hpath hmark hopen
  obtain ⟨hold, hnew⟩ := @Disk.openPlace_again d d' q _ _ d₂ rfl rfl hput
  have hopen₂ : d₂.openLocator (locatorOf path) = d₂.openPlace q ⟨.create, false, .many, none⟩ := by
    rw [Disk.openLocator_of_target htarget]
    show (d₂.enginePlace (Path.ofText path)).bind (fun q => d₂.openPlace q _) = _
    rw [Disk.enginePlace_eq hd hleads hretains, hplace]
    rfl
  rw [hopen₂]
  exact ⟨hold, fun hfree => hnew hfree (hretains.leadsTo hleads).parent⟩

end Installer

end Rollbook
