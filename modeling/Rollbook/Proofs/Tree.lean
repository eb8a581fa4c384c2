import Rollbook.Disk
/-
  Rollbook.Proofs.Tree — a tree as what is seen at its places.

  Two trees may list their entries in different orders, and the proofs about programs do
  not care: they ask what is at a place, nothing, a folder or a file (`Disk.sight`). What
  is at a place is below a folder (`sight_concat`). To put a file or an empty folder in
  a folder, where no folder stands yet, changes what is seen at that place and nowhere
  else (`sight_put`), and so does taking away what is no folder (`sight_remove`).
-/

namespace Rollbook

/-- What is seen at a place. -/
inductive Sight where
  | nothing
  | folder
  | file (c : Contents)

def Sight.of : Option Node → Sight
  | none => .nothing
  | some (.folder _) => .folder
  | some (.file c) => .file c

namespace Sight

variable {n? : Option Node}

@[simp] theorem of_eq_nothing : Sight.of n? = .nothing ↔ n? = none := by
  rcases n? with _ | ⟨_ | _⟩ <;> simp [Sight.of]

theorem of_eq_folder : Sight.of n? = .folder ↔ ∃ entries, n? = some (.folder entries) := by
  rcases n? with _ | ⟨_ | _⟩ <;> simp [Sight.of]

theorem of_eq_file {c : Contents} : Sight.of n? = .file c ↔ n? = some (.file c) := by
  rcases n? with _ | ⟨_ | _⟩ <;> simp [Sight.of]

end Sight

namespace Node

variable {n new : Node} {x y : Place} {name : String}

def sight (n : Node) (x : Place) : Sight := .of (n.at? x)

/-- Nothing is below the node. -/
def IsLeaf (n : Node) : Prop := ∀ name, n.child? name = none

theorem isLeaf_file (c : Contents) : (Node.file c).IsLeaf := fun _ => rfl

theorem isLeaf_folder : (Node.folder []).IsLeaf := fun _ => rfl

theorem at?_cons (n : Node) (name : String) (x : Place) : n.at? (name :: x) = (n.child? name).bind (·.at? x) := by
  rw [at?]
  cases n.child? name <;> rfl

theorem at?_append (n : Node) (x y : Place) : n.at? (x ++ y) = (n.at? x).bind (·.at? y) := by
  induction x generalizing n with
  | nil => rfl
  | cons name x ih =>
    rw [List.cons_append, at?_cons, at?_cons]
    cases n.child? name with
    | none => rfl
    | some child => exact ih child

theorem sight_cons (n : Node) (name : String) (x : Place) :
    n.sight (name :: x) = ((n.child? name).map (·.sight x)).getD .nothing := by
  rw [sight, at?_cons]
  cases n.child? name <;> rfl

/-- Nothing is below what is no folder. -/
theorem sight_below (h : n.sight x ≠ .folder) : n.sight (x ++ name :: y) = .nothing := by
  rw [sight, at?_append]
  rcases hx : n.at? x with _ | ⟨entries | c⟩
  · rfl
  · exact absurd (by rw [sight, hx]; rfl) h
  · rfl

/-- What is at a place is below a folder. -/
theorem sight_concat (h : n.sight (x ++ [name]) ≠ .nothing) : n.sight x = .folder :=
  Classical.byContradiction fun hno => h (sight_below hno)

theorem exists_child (h : n.sight (name :: x) = .folder) :
    ∃ entries child, n = .folder entries ∧ entries.lookup name = some child ∧ child.sight x = .folder := by
  cases n with
  | file c => cases h
  | folder entries =>
    rw [sight_cons] at h
    cases hchild : entries.lookup name with
    | none => rw [child?, hchild] at h; cases h
    | some child =>
      rw [child?, hchild] at h
      exact ⟨entries, child, rfl, hchild, h⟩

theorem sight_leaf (h : n.IsLeaf) : n.sight (name :: x) = .nothing := by
  rw [sight, at?_cons, h]
  rfl

theorem sight_put_entry (name : String) (child : Node) (entries : List (String × Node)) (k : String) (y : Place) :
    (Node.folder (Keyed.put name child entries)).sight (k :: y) =
      if k = name then child.sight y else (Node.folder entries).sight (k :: y) := by
  rw [sight_cons, sight_cons, child?, child?, Keyed.lookup_put]
  by_cases hk : k = name
  · rw [if_pos hk, if_pos (by simpa using hk)]
    rfl
  · rw [if_neg hk, if_neg (by simpa using hk)]

theorem sight_put (hx : x ≠ []) (hparent : n.sight x.dropLast = .folder) (hfree : n.sight x ≠ .folder)
    (hleaf : new.IsLeaf) (y : Place) : (n.put x new).sight y = if y = x then .of (some new) else n.sight y := by
  -- by induction on the place, from the root on down: below its first name the tree is that child
  induction x generalizing n y with
  | nil => exact absurd rfl hx
  | cons name x ih =>
    cases x with
    | nil =>
      cases n with
      | file c => cases hparent
      | folder entries =>
        rw [put, put]
        rcases y with _ | ⟨k, _ | ⟨k', y⟩⟩
        · rfl
        · rw [sight_put_entry]
          simp [sight, at?]
        · -- neither is anything below the new node, nor was there below the old one
          have hne : k :: k' :: y ≠ [name] := by simp
          rw [sight_put_entry, if_neg hne, sight_leaf hleaf]
          split
          · rename_i hk
            rw [← hk] at hfree
            exact (sight_below hfree).symm
          · rfl
    | cons name' x =>
      obtain ⟨entries, child, rfl, hlookup, hchild⟩ := exists_child hparent
      have hchildFree : child.sight (name' :: x) ≠ .folder := by
        rwa [sight_cons, child?, hlookup] at hfree
      rw [put, hlookup, Option.getD_some]
      cases y with
      | nil => rfl
      | cons k y =>
        rw [sight_put_entry, ih (by simp) hchild hchildFree]
        by_cases hk : k = name
        · rw [if_pos hk, hk, sight_cons, child?, hlookup]
          simp
        · rw [if_neg hk, if_neg (by simp [hk])]

theorem lookup_filter (name k : String) (entries : List (String × Node)) :
    (entries.filter fun e => e.1 ≠ name).lookup k = if k = name then none else entries.lookup k := by
  induction entries with
  | nil => simp
  | cons e entries ih =>
    obtain ⟨k', child⟩ := e
    by_cases hname : k' = name
    · subst hname
      rw [List.filter_cons_of_neg (by simp), ih]
      by_cases hk : k = k'
      · rw [if_pos hk, if_pos hk]
      · rw [if_neg hk, if_neg hk, List.lookup_cons, beq_eq_false_iff_ne.2 hk]
    · rw [List.filter_cons_of_pos (by simpa using hname), List.lookup_cons, List.lookup_cons]
      by_cases hk : k = k'
      · subst hk
        rw [beq_self_eq_true, if_neg hname]
      · rw [beq_eq_false_iff_ne.2 hk]
        exact ih

theorem sight_filter (name : String) (entries : List (String × Node)) (k : String) (y : Place) :
    (Node.folder (entries.filter fun e => e.1 ≠ name)).sight (k :: y) =
      if k = name then .nothing else (Node.folder entries).sight (k :: y) := by
  rw [sight_cons, sight_cons, child?, child?, lookup_filter]
  by_cases hk : k = name
  · rw [if_pos hk, if_pos hk]
    rfl
  · rw [if_neg hk, if_neg hk]

theorem sight_remove (hx : x ≠ []) (hfree : n.sight x ≠ .folder) (y : Place) :
    (n.remove x).sight y = if y = x then .nothing else n.sight y := by
  induction x generalizing n y with
  | nil => exact absurd rfl hx
  | cons name x ih =>
    cases n with
    | file c =>
      have hremove : (Node.file c).remove (name :: x) = .file c := by cases x <;> rfl
      rw [hremove]
      cases y with
      | nil => rfl
      | cons k y =>
        rw [sight_cons]
        exact (ite_self _).symm
    | folder entries =>
      cases x with
      | nil =>
        rw [remove]
        rcases y with _ | ⟨k, _ | ⟨k', y⟩⟩
        · rfl
        · rw [sight_filter]
          simp
        · -- what is taken away is no folder, so nothing goes with it
          have hne : k :: k' :: y ≠ [name] := by simp
          rw [sight_filter, if_neg hne]
          split
          · rename_i hk
            rw [← hk] at hfree
            exact (sight_below hfree).symm
          · rfl
      | cons name' x =>
        rw [remove.eq_def]
        dsimp only
        cases hlookup : entries.lookup name with
        | none =>
          dsimp only
          split
          · rename_i hy
            rw [hy, sight_cons, child?, hlookup]
            rfl
          · rfl
        | some child =>
          rw [sight_cons, child?, hlookup] at hfree
          cases y with
          | nil => rfl
          | cons k y =>
            dsimp only
            rw [sight_put_entry, ih (by simp) hfree]
            by_cases hk : k = name
            · rw [if_pos hk, hk, sight_cons, child?, hlookup]
              simp
            · rw [if_neg hk, if_neg (by simp [hk])]

end Node

namespace Disk

variable {d : Disk} {x : Place} {name : String}

def sight (d : Disk) (x : Place) : Sight := .of (d.node? x)

theorem sight_concat (h : d.sight (x ++ [name]) ≠ .nothing) : d.sight x = .folder := Node.sight_concat h

theorem sight_dropLast (hx : x ≠ []) (h : d.sight x ≠ .nothing) : d.sight x.dropLast = .folder := by
  rw [← List.dropLast_concat_getLast hx] at h
  exact sight_concat h

/-- What is above a folder is a folder. -/
theorem sight_dropLast_of_folder (h : d.sight x = .folder) : d.sight x.dropLast = .folder := by
  by_cases hx : x = []
  · rw [hx] at h ⊢
    exact h
  · exact sight_dropLast hx (by rw [h]; simp)

theorem sight_put {new : Node} (hx : x ≠ []) (hparent : d.sight x.dropLast = .folder) (hfree : d.sight x ≠ .folder)
    (hleaf : new.IsLeaf) (y : Place) : (d.put x new).sight y = if y = x then .of (some new) else d.sight y :=
  Node.sight_put hx hparent hfree hleaf y

theorem sight_remove (hx : x ≠ []) (hfree : d.sight x ≠ .folder) (y : Place) :
    (d.remove x).sight y = if y = x then .nothing else d.sight y :=
  Node.sight_remove hx hfree y

theorem file?_of_sight {c : Contents} (h : d.sight x = .file c) : d.node? x = some (.file c) := Sight.of_eq_file.1 h

end Disk

end Rollbook
