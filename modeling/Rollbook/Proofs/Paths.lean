import Mathlib.Data.List.Induction
import Rollbook.Proofs.Tree
import Rollbook.Database.Open
/-
  Rollbook.Proofs.Paths — where a path leads.

  A path is followed through folders, and only through them, so how far it leads depends
  on what is seen and on nothing else of the tree (`resolve_iff`). At its end may be a
  folder or a file, or nothing in a folder that is there; there is one place at most that
  it can lead to (`LeadsTo.place_unique`).

  Programs make folders and files, and take files away, but no folder. As long as all
  folders stay (`Retains`), a path that led to a file leads to that place, whatever is
  there now (`Retains.resolve`), and where folders and empty files are all that was added
  (`Extends`) every file is what it was.
-/

namespace Rollbook

namespace Disk

variable {see see' : Place → Sight} {x y z : Place} {name : String} {names more : List String}

/-! ## Walks -/

/-- The name of something in a folder. -/
structure IsName (name : String) : Prop where
  dot : name ≠ "."
  dots : name ≠ ".."
  size : name.utf8ByteSize ≤ longestName

/-- The place that a name leads to if all is there. -/
def lead (x : Place) (name : String) : Place :=
  if name = "." then x else if name = ".." then x.dropLast else x ++ [name]

/-- A path whose last name is one has parts. -/
theorem IsName.parts_ne_nil {p : Path} (h : IsName name) (hp : p.names = names ++ [name]) : p.parts ≠ [] := by
  intro hparts
  have hdots : ∀ name ∈ p.names, name = "." := by
    unfold Path.names
    rw [hparts]
    split <;> simp
  exact h.dot (hdots name (hp ▸ List.mem_append_right _ (List.mem_singleton_self name)))

theorem lead_name (h : IsName name) : lead x name = x ++ [name] := by rw [lead, if_neg h.dot, if_neg h.dots]

/-- Names lead from one place to another: through folders, and at the end to whatever is there. -/
inductive Walk (see : Place → Sight) : Place → List String → Place → Prop where
  | here {x : Place} : Walk see x [] x
  | dot {x y : Place} {names : List String} : Walk see x names y → Walk see x ("." :: names) y
  | back {x y : Place} {names : List String} : Walk see x.dropLast names y → Walk see x (".." :: names) y
  | into {x y : Place} {name : String} {names : List String} : IsName name → see (x ++ [name]) = .folder →
      Walk see (x ++ [name]) names y → Walk see x (name :: names) y
  | last {x : Place} {name : String} : IsName name → see (x ++ [name]) ≠ .folder → Walk see x [name] (x ++ [name])

namespace Walk

/-- A walk that ends at a folder can be continued. -/
theorem append (h : Walk see x names y) (hy : see y = .folder) (hmore : Walk see y more z) :
    Walk see x (names ++ more) z := by
  induction h with
  | here => exact hmore
  | dot _ ih => exact .dot (ih hy hmore)
  | back _ ih => exact .back (ih hy hmore)
  | into hname hfolder _ ih => exact .into hname hfolder (ih hy hmore)
  | last _ hno => exact absurd hy hno

theorem single (h : IsName name) : Walk see x [name] (x ++ [name]) := by
  by_cases hfolder : see (x ++ [name]) = .folder
  · exact .into h hfolder .here
  · exact .last h hfolder

theorem mono (h : Walk see x names y) (hy : see y = .folder) (hsee : ∀ x, see x = .folder → see' x = .folder) :
    Walk see' x names y := by
  induction h with
  | here => exact .here
  | dot _ ih => exact .dot (ih hy)
  | back _ ih => exact .back (ih hy)
  | into hname hfolder _ ih => exact .into hname (hsee _ hfolder) (ih hy)
  | last _ hno => exact absurd hy hno

/-- What is no folder is found in one, under the last name. -/
theorem exists_last (h : Walk see x names y) (hclosed : ∀ x, see x = .folder → see x.dropLast = .folder)
    (hx : see x = .folder) (hy : see y ≠ .folder) :
    ∃ before name z, names = before ++ [name] ∧ IsName name ∧ Walk see x before z ∧ see z = .folder ∧ y = z ++ [name] := by
  induction h with
  | here => exact absurd hx hy
  | dot _ ih =>
    obtain ⟨before, name, z, rfl, hname, hbefore, hz, rfl⟩ := ih hx hy
    exact ⟨"." :: before, name, z, rfl, hname, .dot hbefore, hz, rfl⟩
  | back _ ih =>
    obtain ⟨before, name, z, rfl, hname, hbefore, hz, rfl⟩ := ih (hclosed _ hx) hy
    exact ⟨".." :: before, name, z, rfl, hname, .back hbefore, hz, rfl⟩
  | into hname' hfolder _ ih =>
    obtain ⟨before, name, z, rfl, hname, hbefore, hz, rfl⟩ := ih hfolder hy
    exact ⟨_ :: before, name, z, rfl, hname, .into hname' hfolder hbefore, hz, rfl⟩
  | last hname _ => exact ⟨[], _, _, rfl, hname, .here, hx, rfl⟩

/-- There is one place at most that names lead to. -/
theorem place_eq (h : Walk see x names y) : y = names.foldl lead x := by
  induction h with
  | here => rfl
  | dot _ ih => rw [List.foldl_cons, lead, if_pos rfl, ← ih]
  | back _ ih => rw [List.foldl_cons, lead, if_neg (by decide), if_pos rfl, ← ih]
  | into hname _ _ ih => rw [List.foldl_cons, lead_name hname, ← ih]
  | last hname _ => rw [List.foldl_cons, lead_name hname, List.foldl_nil]

/-- Without two dots names lead down only. -/
theorem place_eq_append (h : Walk see x names y) (hdots : ".." ∉ names) : ∃ below, y = x ++ below := by
  induction h with
  | here => exact ⟨[], (List.append_nil _).symm⟩
  | dot _ ih => exact ih fun hmem => hdots (.tail _ hmem)
  | back => exact absurd (.head _) hdots
  | @into _ _ name _ _ _ _ ih =>
    obtain ⟨below, rfl⟩ := ih fun hmem => hdots (.tail _ hmem)
    exact ⟨name :: below, List.append_assoc ..⟩
  | last => exact ⟨_, rfl⟩

/-- Names without two dots that lead to a folder lead there in any tree that has the folder. -/
theorem of_folder (h : Walk see x names y) (hdots : ".." ∉ names)
    (hclosed : ∀ x below, see' (x ++ below) = .folder → see' x = .folder) (hy : see' y = .folder) :
    Walk see' x names y := by
  -- all folders on the way are above the last one, so they are in the other tree as well
  induction h with
  | here => exact .here
  | dot _ ih => exact .dot (ih (fun hmem => hdots (.tail _ hmem)) hy)
  | back => exact absurd (.head _) hdots
  | into hname _ hmore ih =>
    have hdots' := fun hmem => hdots (.tail _ hmem)
    obtain ⟨below, rfl⟩ := hmore.place_eq_append hdots'
    exact .into hname (hclosed _ below hy) (ih hdots' hy)
  | last hname _ => exact .single hname

end Walk

/-! ## Following -/

/-- Each node of a trail is in the one before. -/
inductive Trail.Leads (root : Node) : Trail → Prop where
  | nil : Leads root []
  | cons {t : Trail} {name : String} {n : Node} : Leads root t → (t.node root).child? name = some n →
      Leads root ((name, n) :: t)

namespace Trail

variable {root n : Node} {t : Trail} {n? : Option Node}

theorem place_cons : Trail.place ((name, n) :: t) = t.place ++ [name] := by simp [Trail.place]

theorem place_drop : Trail.place (t.drop 1) = t.place.dropLast := by
  cases t with
  | nil => rfl
  | cons e t =>
    obtain ⟨name, n⟩ := e
    rw [place_cons, List.dropLast_concat]
    rfl

namespace Leads

theorem at? (h : Leads root t) : root.at? t.place = some (t.node root) := by
  induction h with
  | nil => rfl
  | cons _ hchild ih =>
    rw [place_cons, Node.at?_append, ih, Option.bind_some, Node.at?_cons, hchild]
    rfl

theorem drop (h : Leads root t) : Leads root (t.drop 1) := by
  cases h with
  | nil => exact .nil
  | cons h _ => exact h

theorem at?_child (h : Leads root t) : root.at? (t.place ++ [name]) = (t.node root).child? name := by
  rw [Node.at?_append, h.at?, Option.bind_some, Node.at?_cons]
  cases (t.node root).child? name <;> rfl

theorem sight_child (h : Leads root t) : root.sight (t.place ++ [name]) = .of ((t.node root).child? name) := by
  rw [Node.sight, h.at?_child]

end Leads

end Trail

theorem walk_of_follow {root : Node} {t : Trail} {n? : Option Node} (ht : t.Leads root)
    (h : follow root t names = .ok (y, n?)) : Walk root.sight t.place names y ∧ n? = root.at? y := by
  -- the trail is where the walk has come to, and each branch of following is a step of it
  induction names generalizing t with
  | nil =>
    cases h
    exact ⟨.here, ht.at?.symm⟩
  | cons name names ih =>
    rw [follow] at h
    split at h
    · rename_i hdot
      obtain ⟨hwalk, hn⟩ := ih ht h
      exact ⟨hdot ▸ .dot hwalk, hn⟩
    split at h
    · rename_i hdots
      obtain ⟨hwalk, hn⟩ := ih ht.drop h
      rw [Trail.place_drop] at hwalk
      exact ⟨hdots ▸ .back hwalk, hn⟩
    split at h
    · cases h
    rename_i hdot hdots hsize
    have hname : IsName name := ⟨hdot, hdots, by omega⟩
    have hsight : root.sight (t.place ++ [name]) = _ := ht.sight_child
    have hat : root.at? (t.place ++ [name]) = _ := ht.at?_child
    split at h
    · rename_i entries hchild
      obtain ⟨hwalk, hn⟩ := ih (.cons ht hchild) h
      rw [Trail.place_cons] at hwalk
      exact ⟨.into hname (by rw [hsight, hchild]; rfl) hwalk, hn⟩
    · rename_i c hchild
      cases names with
      | cons _ _ => cases h
      | nil =>
        cases h
        exact ⟨.last hname (by rw [hsight, hchild]; simp [Sight.of]), by rw [hat, hchild]⟩
    · rename_i hchild
      cases names with
      | cons _ _ => cases h
      | nil =>
        cases h
        exact ⟨.last hname (by rw [hsight, hchild]; simp [Sight.of]), by rw [hat, hchild]⟩

theorem follow_of_walk {root : Node} {t : Trail} (ht : t.Leads root) (h : Walk root.sight t.place names y) :
    follow root t names = .ok (y, root.at? y) := by
  generalize hx : t.place = x at h
  induction h generalizing t with
  | here => rw [follow, ← hx, ht.at?]
  | dot _ ih => rw [follow, if_pos rfl, ih ht hx]
  | back _ ih => rw [follow, if_neg (by decide), if_pos rfl, ih ht.drop (by rw [Trail.place_drop, hx])]
  | @into x y name names hname hfolder _ ih =>
    rw [← hx, ht.sight_child, Sight.of_eq_folder] at hfolder
    obtain ⟨entries, hchild⟩ := hfolder
    rw [follow, if_neg hname.dot, if_neg hname.dots, if_neg (by have := hname.size; omega), hchild]
    exact ih (.cons ht hchild) (by rw [Trail.place_cons, hx])
  | @last x name hname hno =>
    rw [← hx, ht.sight_child] at hno
    rw [follow, if_neg hname.dot, if_neg hname.dots, if_neg (by have := hname.size; omega), ← hx, ht.at?_child]
    rcases hchild : (t.node root).child? name with _ | ⟨_ | c⟩
    · rfl
    · exact absurd (by rw [hchild]; rfl) hno
    · rfl

theorem trailTo_leads {root : Node} {t : Trail} (ht : t.Leads root) (base : Place)
    (h : root.at? (t.place ++ base) ≠ none) :
    (trailTo root t base).Leads root ∧ (trailTo root t base).place = t.place ++ base := by
  induction base generalizing t with
  | nil => exact ⟨ht, (List.append_nil _).symm⟩
  | cons name base ih =>
    have hchild : root.at? (t.place ++ name :: base) = ((t.node root).child? name).bind (·.at? base) := by
      rw [Node.at?_append, ht.at?, Option.bind_some, Node.at?_cons]
    rw [trailTo]
    split
    · rename_i n hn
      obtain ⟨hleads, hplace⟩ := ih (.cons ht hn) (by rwa [Trail.place_cons, List.append_assoc, List.singleton_append])
      exact ⟨hleads, by rw [hplace, Trail.place_cons, List.append_assoc, List.singleton_append]⟩
    · rename_i hn
      exact absurd (by rw [hchild, hn]; rfl) h

/-! ## Resolving -/

/-- The system takes a path at all. -/
structure Path.Legible (p : Path) : Prop where
  nul : p.names.any (fun name => name.toList.contains '\x00') = false
  names : p.isEmpty = false
  size : p.size ≤ longestPath

/-- Where a path starts. -/
def base (d : Disk) (p : Path) : Place := if p.absolute then [] else d.current

variable {d d' : Disk} {p : Path} {n? : Option Node}

/-- The working folder is there. -/
def Grounded (d : Disk) : Prop := d.sight d.current = .folder

theorem sight_above {below : Place} (h : d.sight (x ++ below) = .folder) : d.sight x = .folder := by
  induction below using List.reverseRecOn with
  | nil => rwa [List.append_nil] at h
  | append_singleton below name ih =>
    rw [← List.append_assoc] at h
    exact ih (sight_concat (by rw [h]; simp))

theorem Grounded.root (h : d.Grounded) : d.sight [] = .folder := sight_above (x := []) h

theorem Grounded.base (h : d.Grounded) (p : Path) : d.sight (d.base p) = .folder := by
  unfold Disk.base
  split
  · exact h.root
  · exact h

theorem start_leads (h : d.Grounded) (p : Path) :
    Trail.Leads d.root (if p.absolute then [] else trailTo d.root [] d.current) ∧
      Trail.place (if p.absolute then [] else trailTo d.root [] d.current) = d.base p := by
  unfold Disk.base
  split
  · exact ⟨.nil, rfl⟩
  · have hthere : d.root.at? d.current ≠ none := by
      intro hnone
      have hfolder : Sight.of (d.root.at? d.current) = .folder := h
      rw [hnone] at hfolder
      cases hfolder
    exact trailTo_leads .nil d.current hthere

theorem resolve_eq (hp : Path.Legible p) : d.resolve p =
    match follow d.root (if p.absolute then [] else trailTo d.root [] d.current) p.names with
    | .ok (x, some (.file c)) => if p.folder then .error .notFolder else .ok (x, some (.file c))
    | r => r := by
  have hsize : ¬ longestPath < p.size := by
    have := hp.size
    omega
  unfold resolve resolveFrom
  dsimp only
  rw [hp.nul, if_neg (by decide), hp.names, if_neg (by decide), if_neg hsize]
  rcases follow d.root _ p.names with _ | ⟨x, _ | ⟨_ | c⟩⟩ <;> rfl

theorem legible_of_resolve {r : Place × Option Node} (h : d.resolve p = .ok r) : Path.Legible p := by
  unfold resolve resolveFrom at h
  dsimp only at h
  by_cases hnul : p.names.any (fun name => name.toList.contains '\x00') = true
  · rw [if_pos hnul] at h
    cases h
  by_cases hempty : p.isEmpty = true
  · rw [if_neg hnul, if_pos hempty] at h
    cases h
  by_cases hsize : longestPath < p.size
  · rw [if_neg hnul, if_neg hempty, if_pos hsize] at h
    cases h
  · exact ⟨by simpa using hnul, by simpa using hempty, by omega⟩

/-- A path is resolved to what it leads to, and no file is meant by the path of a folder. -/
theorem resolve_iff (hd : d.Grounded) : d.resolve p = .ok (x, n?) ↔ Path.Legible p ∧
    Walk d.sight (d.base p) p.names x ∧ n? = d.node? x ∧ (p.folder = true → ∀ c, d.sight x ≠ .file c) := by
  obtain ⟨hleads, hplace⟩ := start_leads hd p
  constructor
  · intro h
    have hp := legible_of_resolve h
    rw [resolve_eq hp] at h
    have hfollow : follow d.root (if p.absolute then [] else trailTo d.root [] d.current) p.names = .ok (x, n?) ∧
        (p.folder = true → ∀ c, n? ≠ some (.file c)) := by
      split at h
      · rename_i y c hfollow
        split at h
        · cases h
        · cases h
          exact ⟨hfollow, fun hfolder => absurd hfolder (by assumption)⟩
      · rename_i hno
        refine ⟨h, fun _ c hc => hno x c (hc ▸ h)⟩
    obtain ⟨hwalk, hn⟩ := walk_of_follow hleads hfollow.1
    rw [hplace] at hwalk
    refine ⟨hp, hwalk, hn, fun hfolder c hc => ?_⟩
    exact hfollow.2 hfolder c (hn.trans (file?_of_sight hc))
  · -- only a file that is asked for as a folder is refused at the end of the walk
    rintro ⟨hp, hwalk, rfl, hfile⟩
    rw [← hplace] at hwalk
    rw [resolve_eq hp, follow_of_walk hleads hwalk]
    rcases hn : d.root.at? x with _ | ⟨_ | c⟩
    · exact congrArg (fun n? => Except.ok (x, n?)) hn.symm
    · exact congrArg (fun n? => Except.ok (x, n?)) hn.symm
    · have hno : ¬ p.folder = true := fun hfolder => hfile hfolder c (Sight.of_eq_file.2 hn)
      dsimp only
      rw [if_neg hno]
      exact congrArg (fun n? => Except.ok (x, n?)) hn.symm

theorem isFolder_iff (hd : d.Grounded) :
    d.isFolder p = true ↔ Path.Legible p ∧ ∃ x, Walk d.sight (d.base p) p.names x ∧ d.sight x = .folder := by
  unfold isFolder
  constructor
  · intro h
    split at h
    · rename_i x entries hresolve
      obtain ⟨hp, hwalk, hn, -⟩ := (resolve_iff hd).1 hresolve
      exact ⟨hp, x, hwalk, Sight.of_eq_folder.2 ⟨entries, hn.symm⟩⟩
    · cases h
  · rintro ⟨hp, x, hwalk, hx⟩
    obtain ⟨entries, hn⟩ := Sight.of_eq_folder.1 hx
    have hresolve := (resolve_iff hd).2 ⟨hp, hwalk, hn.symm, fun _ c => by rw [hx]; simp⟩
    rw [hresolve]

theorem isThere_of_resolve {n : Node} (h : d.resolve p = .ok (x, some n)) : d.isThere p = true := by
  unfold isThere
  rw [h]

/-- The path leads to a place in a folder that is there. -/
def LeadsTo (d : Disk) (p : Path) (x : Place) : Prop := ∃ before name z, p.names = before ++ [name] ∧ IsName name ∧
  Walk d.sight (d.base p) before z ∧ d.sight z = .folder ∧ x = z ++ [name]

/-- Where a path starts depends on the working folder only. -/
theorem base_eq (h : d'.current = d.current) (p : Path) : d'.base p = d.base p := by
  unfold Disk.base
  rw [h]

theorem LeadsTo.walk (h : d.LeadsTo p x) : Walk d.sight (d.base p) p.names x := by
  obtain ⟨before, name, z, hnames, hname, hwalk, hz, rfl⟩ := h
  rw [hnames]
  exact hwalk.append hz (.single hname)

theorem LeadsTo.ne_nil (h : d.LeadsTo p x) : x ≠ [] := by
  obtain ⟨before, name, z, -, -, -, -, rfl⟩ := h
  simp

theorem LeadsTo.parent (h : d.LeadsTo p x) : d.sight x.dropLast = .folder := by
  obtain ⟨before, name, z, -, -, -, hz, rfl⟩ := h
  rwa [List.dropLast_concat]

theorem LeadsTo.place_unique {q : Place} (h : d'.LeadsTo p q) (hx : d.LeadsTo p x) (hcurrent : d'.current = d.current) :
    q = x := by
  rw [h.walk.place_eq, hx.walk.place_eq, base_eq hcurrent]

/-- A path without two dots leads to whatever is where it may lead at another time. -/
theorem LeadsTo.of_sight (h : d'.LeadsTo p x) (hcurrent : d'.current = d.current) (hdots : ".." ∉ p.names)
    (hx : d.sight x ≠ .nothing) : d.LeadsTo p x := by
  obtain ⟨before, name, z, hnames, hname, hwalk, -, rfl⟩ := h
  rw [base_eq hcurrent] at hwalk
  have hz : d.sight z = .folder := sight_concat hx
  have hdots' : ".." ∉ before := fun hmem => hdots (hnames ▸ List.mem_append_left _ hmem)
  exact ⟨before, name, z, hnames, hname, hwalk.of_folder hdots' (fun _ _ => sight_above) hz, hz, rfl⟩

theorem leadsTo_of_walk (hd : d.Grounded) (h : Walk d.sight (d.base p) p.names x) (hx : d.sight x ≠ .folder) :
    d.LeadsTo p x :=
  h.exists_last (fun _ => sight_dropLast_of_folder) (hd.base p) hx

/-- A file that is found under a path. -/
theorem of_resolve_file {c : Contents} (hd : d.Grounded) (h : d.resolve p = .ok (x, some (.file c))) :
    Path.Legible p ∧ p.folder = false ∧ d.sight x = .file c ∧ d.LeadsTo p x := by
  obtain ⟨hp, hwalk, hn, hno⟩ := (resolve_iff hd).1 h
  have hx : d.sight x = .file c := Sight.of_eq_file.2 hn.symm
  refine ⟨hp, ?_, hx, leadsTo_of_walk hd hwalk (by rw [hx]; simp)⟩
  cases hfolder : p.folder with
  | false => rfl
  | true => exact absurd hx (hno hfolder c)

/-- Nothing is found at the end of a path. -/
theorem of_resolve_free (hd : d.Grounded) (h : d.resolve p = .ok (x, none)) :
    Path.Legible p ∧ d.sight x = .nothing ∧ d.LeadsTo p x := by
  obtain ⟨hp, hwalk, hn, -⟩ := (resolve_iff hd).1 h
  have hx : d.sight x = .nothing := Sight.of_eq_nothing.2 hn.symm
  exact ⟨hp, hx, leadsTo_of_walk hd hwalk (by rw [hx]; simp)⟩

theorem resolve_of_leadsTo (hd : d.Grounded) (hp : Path.Legible p) (hfolder : p.folder = false) (h : d.LeadsTo p x) :
    d.resolve p = .ok (x, d.node? x) :=
  (resolve_iff hd).2 ⟨hp, h.walk, rfl, fun hno => by rw [hfolder] at hno; cases hno⟩

/-! ## Growth -/

/-- All folders stay. -/
structure Retains (d d' : Disk) : Prop where
  current : d'.current = d.current
  folder : ∀ x, d.sight x = .folder → d'.sight x = .folder

namespace Retains

variable {d'' : Disk} {c : Contents}

theorem refl (d : Disk) : d.Retains d := ⟨rfl, fun _ => id⟩

/-- No folder is lost by a change at a place that is none. -/
theorem of_sight {new : Sight} (hcurrent : d'.current = d.current)
    (hsight : ∀ y, d'.sight y = if y = x then new else d.sight y) (hfree : d.sight x ≠ .folder) : d.Retains d' := by
  refine ⟨hcurrent, fun y hy => ?_⟩
  rw [hsight, if_neg, hy]
  rintro rfl
  exact hfree hy

theorem trans (h : d.Retains d') (h' : d'.Retains d'') : d.Retains d'' :=
  ⟨h'.current.trans h.current, fun x hx => h'.folder x (h.folder x hx)⟩

theorem grounded (h : d.Retains d') (hd : d.Grounded) : d'.Grounded := by
  unfold Grounded
  rw [h.current]
  exact h.folder _ hd

theorem base (h : d.Retains d') (p : Path) : d'.base p = d.base p := base_eq h.current p

theorem walk (h : d.Retains d') (hx : d.sight x = .folder) (hwalk : Walk d.sight y names x) : Walk d'.sight y names x :=
  hwalk.mono hx h.folder

theorem isFolder (h : d.Retains d') (hd : d.Grounded) (hp : d.isFolder p = true) : d'.isFolder p = true := by
  obtain ⟨hlegible, x, hwalk, hx⟩ := (isFolder_iff hd).1 hp
  refine (isFolder_iff (h.grounded hd)).2 ⟨hlegible, x, ?_, h.folder x hx⟩
  rw [h.base]
  exact h.walk hx hwalk

theorem leadsTo (h : d.Retains d') (hp : d.LeadsTo p x) : d'.LeadsTo p x := by
  obtain ⟨before, name, z, hnames, hname, hwalk, hz, rfl⟩ := hp
  refine ⟨before, name, z, hnames, hname, ?_, h.folder z hz, rfl⟩
  rw [h.base]
  exact h.walk hz hwalk

/-- A path that led to a file leads to the same place as long as all folders are there. -/
theorem resolve (h : d.Retains d') (hd : d.Grounded) (hp : d.resolve p = .ok (x, some (.file c))) :
    d'.resolve p = .ok (x, d'.node? x) := by
  obtain ⟨hlegible, hfolder, -, hleads⟩ := of_resolve_file hd hp
  exact resolve_of_leadsTo (h.grounded hd) hlegible hfolder (h.leadsTo hleads)

end Retains

/-- All that is there stays, and what comes to it is a folder or a file without content. -/
structure Extends (d d' : Disk) : Prop where
  current : d'.current = d.current
  sight : ∀ x, d'.sight x = d.sight x ∨
    d.sight x = .nothing ∧ (d'.sight x = .folder ∨ d'.sight x = .file (.text ""))

namespace Extends

variable {d'' : Disk} {c : Contents}

theorem refl (d : Disk) : d.Extends d := ⟨rfl, fun _ => .inl rfl⟩

theorem trans (h : d.Extends d') (h' : d'.Extends d'') : d.Extends d'' := by
  refine ⟨h'.current.trans h.current, fun x => ?_⟩
  rcases h'.sight x with hx' | ⟨hx', hnew⟩
  · rw [hx']
    exact h.sight x
  · rcases h.sight x with hx | ⟨hx, hno | hno⟩
    · exact .inr ⟨hx ▸ hx', hnew⟩
    · rw [hno] at hx'
      cases hx'
    · rw [hno] at hx'
      cases hx'

theorem sight_eq (h : d.Extends d') (hx : d.sight x ≠ .nothing) : d'.sight x = d.sight x :=
  (h.sight x).resolve_right fun hno => hx hno.1

theorem file (h : d.Extends d') (hx : d.sight x = .file c) : d'.sight x = .file c := by
  rw [h.sight_eq (by rw [hx]; simp), hx]

/-- No database is made. -/
theorem database {db : Database} (h : d.Extends d') (hx : d'.sight x = .file (.database db)) :
    d.sight x = .file (.database db) := by
  rcases h.sight x with hsame | ⟨-, hnew | hnew⟩
  · rw [← hsame, hx]
  · rw [hnew] at hx
    cases hx
  · rw [hnew] at hx
    cases hx

theorem retains (h : d.Extends d') : d.Retains d' := ⟨h.current, fun x hx => by rw [h.sight_eq (by rw [hx]; simp), hx]⟩

theorem put {new : Node} (hx : x ≠ []) (hparent : d.sight x.dropLast = .folder) (hfree : d.sight x = .nothing)
    (hnew : new = .folder [] ∨ new = .file (.text "")) : d.Extends (d.put x new) := by
  have hleaf : new.IsLeaf := by
    rcases hnew with rfl | rfl
    · exact Node.isLeaf_folder
    · exact Node.isLeaf_file _
  refine ⟨rfl, fun y => ?_⟩
  rw [sight_put hx hparent (by rw [hfree]; simp) hleaf]
  by_cases hy : y = x
  · subst hy
    rw [if_pos rfl]
    refine .inr ⟨hfree, ?_⟩
    rcases hnew with rfl | rfl
    · exact .inl rfl
    · exact .inr rfl
  · rw [if_neg hy]
    exact .inl rfl

end Extends

theorem extends_of_makeFolder (hd : d.Grounded) (h : d.makeFolder p = .ok d') :
    d.Extends d' ∧ d'.isFolder p = true := by
  unfold makeFolder at h
  rcases hresolve : d.resolve p with e | ⟨x, _ | n⟩
  · rw [hresolve] at h
    cases h
  · rw [hresolve] at h
    cases h
    obtain ⟨hp, hfree, hleads⟩ := of_resolve_free hd hresolve
    have hextends : d.Extends (d.put x (.folder [])) := .put hleads.ne_nil hleads.parent hfree (.inl rfl)
    have hretains := hextends.retains
    refine ⟨hextends, (isFolder_iff (hretains.grounded hd)).2 ⟨hp, x, (hretains.leadsTo hleads).walk, ?_⟩⟩
    rw [sight_put hleads.ne_nil hleads.parent (by rw [hfree]; simp) Node.isLeaf_folder, if_pos rfl]
    rfl
  · rw [hresolve] at h
    cases h

theorem extends_of_makeFolders (hd : d.Grounded) : d.Extends (d.makeFolders p).2 ∧
    ((d.makeFolders p).1 = .ok () → p.isEmpty = true ∨ (d.makeFolders p).2.isFolder p = true) := by
  fun_induction makeFolders d p
  case case1 p hempty => exact ⟨.refl d, fun _ => .inl hempty⟩
  case case2 p _ d' hmake =>
    obtain ⟨hextends, hfolder⟩ := extends_of_makeFolder hd hmake
    exact ⟨hextends, fun _ => .inr hfolder⟩
  case case3 => exact ⟨.refl d, nofun⟩
  case case4 parent _ _ d' hparent ih =>
    rw [hparent] at ih
    exact ⟨ih.1, nofun⟩
  case case5 p _ _ parent _ d₁ hparent d' hmake ih =>
    rw [hparent] at ih
    obtain ⟨hextends, hfolder⟩ := extends_of_makeFolder (ih.1.retains.grounded hd) hmake
    exact ⟨ih.1.trans hextends, fun _ => .inr hfolder⟩
  case case6 p _ _ parent _ d₁ hparent e _ ih =>
    rw [hparent] at ih
    refine ⟨ih.1, fun h => .inr ?_⟩
    by_contra hno
    rw [if_neg hno] at h
    cases h
  case case7 p _ e _ _ =>
    refine ⟨.refl d, fun h => .inr ?_⟩
    by_contra hno
    rw [if_neg hno] at h
    cases h

theorem makeFolders_of_isEmpty (h : p.isEmpty = true) : d.makeFolders p = (.ok (), d) := by
  rw [makeFolders, if_pos h]

/-- Where there is a folder none is made. -/
theorem makeFolders_of_isFolder (h : d.isFolder p = true) : d.makeFolders p = (.ok (), d) := by
  have hmake : d.makeFolder p = .error .exists := by
    unfold isFolder at h
    split at h
    · rename_i x entries hresolve
      unfold makeFolder
      rw [hresolve]
      rfl
    · cases h
  by_cases hempty : p.isEmpty = true
  · exact makeFolders_of_isEmpty hempty
  · rw [makeFolders, if_neg hempty, hmake]
    dsimp only
    rw [if_pos h]

/-! ## Files -/

theorem extends_of_openForAppend (hd : d.Grounded) (h : d.openForAppend p = .ok d') :
    d.Extends d' ∧ ∃ x c, d'.resolve p = .ok (x, some (.file c)) := by
  unfold openForAppend at h
  rcases hresolve : d.resolve p with e | ⟨x, _ | ⟨_ | c⟩⟩
  · rw [hresolve] at h
    cases h
  · rw [hresolve] at h
    by_cases hfolder : p.folder = true
    · change (if p.folder then Except.error Fault.isFolder else _) = _ at h
      rw [if_pos hfolder] at h
      cases h
    · change (if p.folder then Except.error Fault.isFolder else _) = _ at h
      rw [if_neg hfolder] at h
      cases h
      obtain ⟨hp, hfree, hleads⟩ := of_resolve_free hd hresolve
      have hextends : d.Extends (d.put x (.file (.text ""))) := .put hleads.ne_nil hleads.parent hfree (.inr rfl)
      have hretains := hextends.retains
      have hthere := resolve_of_leadsTo (hretains.grounded hd) hp (by simpa using hfolder) (hretains.leadsTo hleads)
      have hnode : (d.put x (.file (.text ""))).node? x = some (.file (.text "")) := by
        refine file?_of_sight ?_
        rw [sight_put hleads.ne_nil hleads.parent (by rw [hfree]; simp) (Node.isLeaf_file _), if_pos rfl]
        rfl
      rw [hnode] at hthere
      exact ⟨hextends, x, .text "", hthere⟩
  · rw [hresolve] at h
    cases h
  · rw [hresolve] at h
    cases h
    exact ⟨.refl d, x, c, hresolve⟩

theorem openForAppend_of_resolve {c : Contents} (h : d.resolve p = .ok (x, some (.file c))) : d.openForAppend p = .ok d := by
  unfold openForAppend
  rw [h]
  rfl

theorem openForAppend_of_free (hfolder : p.folder = false) (h : d.resolve p = .ok (x, none)) :
    d.openForAppend p = .ok (d.put x (.file (.text ""))) := by
  unfold openForAppend
  rw [h]
  show (if p.folder then Except.error Fault.isFolder else _) = _
  rw [hfolder]
  rfl

theorem of_removeFile (h : d.removeFile p = .ok d') : ∃ x c, d.resolve p = .ok (x, some (.file c)) ∧ d' = d.remove x := by
  unfold removeFile at h
  rcases hresolve : d.resolve p with e | ⟨x, _ | ⟨_ | c⟩⟩ <;> rw [hresolve] at h <;> cases h
  exact ⟨x, c, rfl, rfl⟩

/-- Taking away a file leaves everything else as it is. -/
theorem sight_removed (hd : d.Grounded) {c : Contents} (h : d.sight x = .file c) (y : Place) :
    (d.remove x).sight y = if y = x then .nothing else d.sight y := by
  refine sight_remove ?_ (by rw [h]; simp) y
  rintro rfl
  rw [hd.root] at h
  cases h

theorem retains_removed (hd : d.Grounded) {c : Contents} (h : d.sight x = .file c) : d.Retains (d.remove x) :=
  .of_sight rfl (sight_removed hd h) (by rw [h]; simp)

end Disk

end Rollbook
