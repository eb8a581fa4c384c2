import Mathlib.Data.List.TakeWhile
import Rollbook.Installer
/-
  Rollbook.Proofs.Locator — which file a locator names.

  A setting is turned into a locator in two ways. The service takes it as it is, or puts a
  scheme in front of a path; the installer takes off one scheme and what follows the mark,
  and puts its own scheme and mark around the rest. The driver then takes off schemes as
  often as they are there. So both come to the same name as long as what the installer
  leaves has no scheme that the service's locator hides from the driver, and that is so
  except where the long scheme stands behind the short one (`written_ofSetting`).

  What is said beside the name does not change it (`name_of_ofLocator?`). The engine is
  handed the name, or a locator of its own with the name encoded in it, from which it reads
  the same bytes again (`spelled_encoded`).
-/

namespace Rollbook

open Text

/-! ## Cutting and stripping -/

namespace Text

variable {α : Type} [DecidableEq α] {c : α} {before rest : List α}

theorem cutAt_fst (c : α) (cs : List α) : (cutAt c cs).1 = cs.takeWhile (· ≠ c) := by
  unfold cutAt
  split
  · rename_i h
    have happend := List.takeWhile_append_dropWhile (p := (· ≠ c)) (l := cs)
    rw [h, List.append_nil] at happend
    exact happend.symm
  · rfl

theorem takeWhile_append (h : c ∉ before) : (before ++ rest).takeWhile (· ≠ c) = before ++ rest.takeWhile (· ≠ c) :=
  List.takeWhile_append_of_pos fun d hd => by simpa using fun hdc : d = c => h (hdc ▸ hd)

theorem takeWhile_append_mark (c : α) (cs rest : List α) :
    (cs ++ c :: rest).takeWhile (· ≠ c) = cs.takeWhile (· ≠ c) := by
  induction cs with
  | nil => simp
  | cons d cs ih =>
    rw [List.cons_append, List.takeWhile_cons, List.takeWhile_cons]
    by_cases h : d = c
    · simp [h]
    · rw [if_pos (by simpa using h), if_pos (by simpa using h), ih]

theorem takeWhile_eq_self {cs : List α} (h : c ∉ cs) : cs.takeWhile (· ≠ c) = cs := by
  have happend := @takeWhile_append _ _ _ _ [] h
  rwa [List.append_nil, List.takeWhile_nil, List.append_nil] at happend

theorem cutAt_append (h : c ∉ before) : cutAt c (before ++ c :: rest) = (before, some rest) := by
  have hdrop : (before ++ c :: rest).dropWhile (· ≠ c) = c :: rest := by
    rw [List.dropWhile_append_of_pos fun d hd => by simpa using fun hdc : d = c => h (hdc ▸ hd)]
    simp
  unfold cutAt
  rw [hdrop, takeWhile_append h]
  simp

theorem not_mem_takeWhile (c : α) (cs : List α) : c ∉ cs.takeWhile (· ≠ c) := by
  intro h
  simpa using List.mem_takeWhile_imp h

end Text

namespace OpenOptions

variable {pre : List Char}

theorem stripAll_append (h : pre ≠ []) (cs : List Char) : stripAll pre (pre ++ cs) = stripAll pre cs := by
  rw [stripAll, dif_pos ⟨by simp, h, by simp [h]⟩, List.drop_left]

theorem stripAll_of_absent {cs : List Char} (h : ¬ pre <+: cs) : stripAll pre cs = cs := by
  rw [stripAll, dif_neg]
  rintro ⟨hpre, -⟩
  exact h (List.isPrefixOf_iff_prefix.1 hpre)

/-- A text begins with no repetition, or with one that can be stripped before the others. -/
theorem strip_induction (hpre : pre ≠ []) {P : List Char → Prop} (keep : ∀ cs, ¬ pre <+: cs → P cs)
    (strip : ∀ cs, P cs → P (pre ++ cs)) (cs : List Char) : P cs := by
  induction hn : cs.length using Nat.strongRecOn generalizing cs with
  | _ n ih =>
    by_cases h : pre <+: cs
    · obtain ⟨rest, rfl⟩ := h
      have hpos := List.length_pos_iff.2 hpre
      exact strip rest (ih rest.length (by simp at hn; omega) rest rfl)
    · exact keep cs h

theorem stripAll_suffix (hpre : pre ≠ []) (cs : List Char) : stripAll pre cs <:+ cs := by
  induction cs using strip_induction hpre with
  | keep cs h => simp only [stripAll_of_absent h, List.suffix_rfl]
  | strip cs ih =>
    rw [stripAll_append hpre]
    exact ih.trans (List.suffix_append pre cs)

/-- What is stripped off lies before the mark, so it does not matter which is done first. -/
theorem takeWhile_stripAll {c : Char} (hpre : pre ≠ []) (hc : c ∉ pre) (cs : List Char) :
    (stripAll pre cs).takeWhile (· ≠ c) = stripAll pre (cs.takeWhile (· ≠ c)) := by
  induction cs using strip_induction hpre with
  | keep cs h =>
    rw [stripAll_of_absent h, stripAll_of_absent fun hcut => h (hcut.trans (List.takeWhile_prefix _))]
  | strip cs ih => rw [takeWhile_append hc, stripAll_append hpre, stripAll_append hpre, ih]

end OpenOptions

/-! ## The written name -/

namespace Locator

open OpenOptions

def scheme : List Char := "sqlite:".toList

/-- The scheme with the slashes of an address. -/
def longScheme : List Char := "sqlite://".toList

/-- A text without any scheme in front. -/
def bare (cs : List Char) : List Char := stripAll scheme (stripAll longScheme cs)

/-- The name of the file as it stands in a locator, with its percent escapes. -/
def written (locator : String) : List Char := (partsOf locator).1

theorem longScheme_eq : longScheme = scheme ++ "//".toList := by decide

theorem bare_suffix (cs : List Char) : bare cs <:+ cs :=
  (stripAll_suffix (by decide) _).trans (stripAll_suffix (by decide) _)

theorem written_eq (locator : String) : written locator = bare (locator.toList.takeWhile (· ≠ '?')) := by
  show (cutAt '?' (stripAll scheme (stripAll longScheme locator.toList))).1 = _
  rw [cutAt_fst, takeWhile_stripAll (by decide) (by decide), takeWhile_stripAll (by decide) (by decide)]
  rfl

theorem bare_longScheme (cs : List Char) : bare (longScheme ++ cs) = bare cs := by
  unfold bare
  rw [stripAll_append (by decide)]

/-- Behind a scheme without slashes only more of these are taken off. -/
theorem bare_scheme {cs : List Char} (h : ¬ longScheme <+: scheme ++ cs) : bare (scheme ++ cs) = stripAll scheme cs := by
  unfold bare
  rw [stripAll_of_absent h, stripAll_append (by decide)]

/-- It makes a difference whether the long scheme is taken off first only where it is there. -/
theorem bare_eq_stripAll {cs : List Char} :
    bare (cs.takeWhile (· ≠ '?')) = stripAll scheme (cs.takeWhile (· ≠ '?')) ↔ ¬ longScheme <+: cs := by
  constructor
  · rintro h ⟨rest, rfl⟩
    have hslashes : ¬ scheme <+: "//".toList ++ rest.takeWhile (· ≠ '?') :=
      fun h => absurd (List.cons_prefix_cons.1 h).1 (by decide)
    rw [takeWhile_append (by decide), bare_longScheme, longScheme_eq, List.append_assoc, stripAll_append (by decide),
      stripAll_of_absent hslashes] at h
    have hshorter := (bare_suffix (rest.takeWhile (· ≠ '?'))).length_le
    rw [h, List.length_append] at hshorter
    have htwo : "//".toList.length = 2 := by decide
    omega
  · intro h
    have hcut : ¬ longScheme <+: cs.takeWhile (· ≠ '?') := fun hcut => h (hcut.trans (List.takeWhile_prefix _))
    unfold bare
    rw [stripAll_of_absent hcut]

/-! ## Settings -/

theorem toList_locatorOf (path : String) :
    (Installer.locatorOf path).toList = longScheme ++ path.toList ++ '?' :: "mode=rwc".toList := by
  have happend : Installer.locatorOf path = "sqlite://" ++ path ++ "?mode=rwc" := rfl
  have hmark : "?mode=rwc".toList = '?' :: "mode=rwc".toList := rfl
  rw [happend, String.toList_append, String.toList_append, hmark]
  rfl

/-- The path that a setting spells, by what the setting begins with. -/
theorem pathOf_cases (setting : String) :
    (∃ rest, setting.toList = longScheme ++ rest ∧ (Installer.pathOf setting).toList = rest.takeWhile (· ≠ '?')) ∨
    (¬ longScheme <+: setting.toList ∧
      ∃ rest, setting.toList = scheme ++ rest ∧ (Installer.pathOf setting).toList = rest.takeWhile (· ≠ '?')) ∨
    (¬ scheme <+: setting.toList ∧ (Installer.pathOf setting).toList = setting.toList.takeWhile (· ≠ '?')) := by
  have hpath : (Installer.pathOf setting).toList =
      (if longScheme.isPrefixOf setting.toList then setting.toList.drop longScheme.length
        else if scheme.isPrefixOf setting.toList then setting.toList.drop scheme.length
        else setting.toList).takeWhile (· ≠ '?') := by
    rw [Installer.pathOf, String.toList_ofList]
    rfl
  simp only [List.isPrefixOf_iff_prefix] at hpath
  by_cases hlong : longScheme <+: setting.toList
  · rw [if_pos hlong] at hpath
    obtain ⟨rest, hrest⟩ := hlong
    rw [← hrest, List.drop_left] at hpath
    exact Or.inl ⟨rest, hrest.symm, hpath⟩
  rw [if_neg hlong] at hpath
  by_cases hshort : scheme <+: setting.toList
  · rw [if_pos hshort] at hpath
    obtain ⟨rest, hrest⟩ := hshort
    rw [← hrest, List.drop_left] at hpath
    exact Or.inr (Or.inl ⟨hlong, rest, hrest.symm, hpath⟩)
  · rw [if_neg hshort] at hpath
    exact Or.inr (Or.inr ⟨hshort, hpath⟩)

theorem mark_not_mem_pathOf (setting : String) : '?' ∉ (Installer.pathOf setting).toList := by
  rcases pathOf_cases setting with ⟨rest, -, h⟩ | ⟨-, rest, -, h⟩ | ⟨-, h⟩ <;> rw [h] <;> exact not_mem_takeWhile _ _

theorem written_locatorOf (path : String) :
    written (Installer.locatorOf path) = bare (path.toList.takeWhile (· ≠ '?')) := by
  have hscheme : '?' ∉ longScheme := by decide
  rw [written_eq, toList_locatorOf, List.append_assoc, takeWhile_append hscheme, bare_longScheme, takeWhile_append_mark]

/-- A setting that is no locator of another kind of database is a locator or becomes one. -/
theorem ofSetting_cases {setting : String} (hpostgres : ¬ "postgres://".toList <+: setting.toList)
    (hmysql : ¬ "mysql://".toList <+: setting.toList) :
    (scheme <+: setting.toList ∧ ofSetting setting = setting) ∨
      (¬ scheme <+: setting.toList ∧ ofSetting setting = Installer.locatorOf setting) := by
  have hlocator : isLocator setting = true ↔ scheme <+: setting.toList := by
    simp only [isLocator, List.any_cons, List.any_nil, Bool.or_eq_true, List.isPrefixOf_iff_prefix, Bool.or_false]
    exact ⟨fun h => h.resolve_right fun h => h.elim hpostgres hmysql, Or.inl⟩
  by_cases h : scheme <+: setting.toList
  · exact Or.inl ⟨h, if_pos (hlocator.2 h)⟩
  · exact Or.inr ⟨h, if_neg fun hl => h (hlocator.1 hl)⟩

/-- The installer has the same name in its locator as the service, unless the setting begins with a scheme and the long
    scheme behind it. -/
theorem written_ofSetting {setting : String} (hpostgres : ¬ "postgres://".toList <+: setting.toList)
    (hmysql : ¬ "mysql://".toList <+: setting.toList) :
    written (Installer.locatorOf (Installer.pathOf setting)) = written (ofSetting setting) ↔
      ¬ scheme ++ longScheme <+: setting.toList := by
  rw [written_locatorOf, takeWhile_eq_self (mark_not_mem_pathOf setting)]
  have hmark : '?' ∉ longScheme ∧ '?' ∉ scheme := by decide
  rcases pathOf_cases setting with ⟨rest, hsetting, hpath⟩ | ⟨hlong, rest, hsetting, hpath⟩ | ⟨hshort, hpath⟩
  · -- the long scheme comes off on both sides
    have hscheme : scheme <+: setting.toList := by
      rw [hsetting, longScheme_eq, List.append_assoc]
      exact List.prefix_append _ _
    have hdoubled : ¬ scheme ++ longScheme <+: setting.toList := by
      rw [hsetting, longScheme_eq, List.append_assoc scheme, List.prefix_append_right_inj]
      exact fun h => absurd (List.cons_prefix_cons.1 h).1 (by decide)
    rcases ofSetting_cases hpostgres hmysql with ⟨-, hlocator⟩ | ⟨hno, -⟩
    · rw [hlocator, written_eq, hsetting, takeWhile_append hmark.1, bare_longScheme, hpath]
      exact iff_of_true rfl (by rwa [← hsetting])
    · exact absurd hscheme hno
  · have hcut : ¬ longScheme <+: scheme ++ rest.takeWhile (· ≠ '?') := by
      rw [← takeWhile_append hmark.2, ← hsetting]
      exact fun h => hlong (h.trans (List.takeWhile_prefix _))
    rcases ofSetting_cases hpostgres hmysql with ⟨-, hlocator⟩ | ⟨hno, -⟩
    · rw [hlocator, written_eq, hpath, hsetting, takeWhile_append hmark.2, bare_scheme hcut, List.prefix_append_right_inj]
      exact bare_eq_stripAll
    · exact absurd (hsetting ▸ List.prefix_append _ _) hno
  · rcases ofSetting_cases hpostgres hmysql with ⟨hscheme, -⟩ | ⟨-, hlocator⟩
    · exact absurd hscheme hshort
    · rw [hlocator, written_locatorOf, hpath]
      exact iff_of_true rfl fun h => hshort ((List.prefix_append _ _).trans h)

end Locator

/-! ## Options -/

namespace OpenOptions

variable {o o' : OpenOptions} {parameters : List (String × String)}

theorem name_of_withParameter {p : String × String} (h : o.withParameter p = .ok o') : o'.name = o.name := by
  unfold withParameter at h
  split at h
  case h_1 => split at h <;> cases h <;> rfl
  case h_2 =>
    split at h <;> cases h
    rfl
  case h_3 =>
    split at h
    · cases h
      rfl
    · split at h <;> cases h
      rfl
  case h_4 =>
    cases h
    rfl
  case h_5 => cases h

theorem name_of_foldlM (h : parameters.foldlM withParameter o = .ok o') : o'.name = o.name := by
  induction parameters generalizing o with
  | nil => cases h; rfl
  | cons p ps ih =>
    rw [List.foldlM_cons] at h
    cases hp : o.withParameter p with
    | error e => rw [hp] at h; cases h
    | ok o₁ =>
      rw [hp] at h
      exact (ih h).trans (name_of_withParameter hp)

/-- Parameters say nothing about the name. -/
theorem name_of_ofLocator? {locator : String} (h : ofLocator? locator = .ok o) :
    ∃ o₀, ofName? (Locator.written locator) = .ok o₀ ∧ o.name = o₀.name := by
  cases hname : ofName? (Locator.written locator) with
  | error e =>
    have herror : ofLocator? locator = .error e := by
      show Except.bind (ofName? (Locator.written locator)) _ = _
      rw [hname]
      rfl
    rw [herror] at h
    cases h
  | ok o₀ =>
    have hfold : ((partsOf locator).2.map queryParameters |>.getD []).foldlM withParameter o₀ = .ok o := by
      rw [← h]
      show _ = Except.bind (ofName? (Locator.written locator)) _
      rw [hname]
      rfl
    exact ⟨o₀, rfl, name_of_foldlM hfold⟩

theorem stripAll_append_mark {pre cs rest : List Char} {c : Char} (hpre : pre ≠ []) (hc : c ∉ pre) :
    stripAll pre (cs ++ c :: rest) = stripAll pre cs ++ c :: rest := by
  induction cs using strip_induction hpre with
  | keep cs h =>
    have hmore : ¬ pre <+: cs ++ c :: rest := by
      intro hlong
      rcases List.prefix_or_prefix_of_prefix hlong (List.prefix_append cs _) with hshort | ⟨more, rfl⟩
      · exact h hshort
      · -- then the mark would be the next character of what is stripped
        cases more with
        | nil => exact h (by simp)
        | cons d more =>
          rw [List.prefix_append_right_inj, List.cons_prefix_cons] at hlong
          exact hc (by simp [hlong.1])
    rw [stripAll_of_absent h, stripAll_of_absent hmore]
  | strip cs ih => rw [List.append_assoc, stripAll_append hpre, stripAll_append hpre, ih]

/-- What the installer's locator says beside the name. -/
theorem ofLocator?_locatorOf {path : String} (h : '?' ∉ path.toList) :
    ofLocator? (Installer.locatorOf path) =
      (ofName? (Locator.bare path.toList)).map fun o => { o with create := true } := by
  have hmark : '?' ∉ Locator.longScheme ∧ '?' ∉ Locator.scheme := by decide
  have hparts : partsOf (Installer.locatorOf path) = (Locator.bare path.toList, some "mode=rwc".toList) := by
    show cutAt '?' (Locator.bare (Installer.locatorOf path).toList) = _
    rw [Locator.toList_locatorOf, List.append_assoc, Locator.bare_longScheme, Locator.bare,
      stripAll_append_mark (by decide) hmark.1, stripAll_append_mark (by decide) hmark.2]
    exact cutAt_append fun hmem => h ((Locator.bare_suffix _).subset hmem)
  have hquery : queryParameters "mode=rwc".toList = [("mode", "rwc")] := by decide +kernel
  unfold ofLocator?
  rw [hparts]
  show Except.bind _ _ = _
  cases ofName? (Locator.bare path.toList) with
  | error e => rfl
  | ok o =>
    show (queryParameters "mode=rwc".toList).foldlM withParameter o = _
    rw [hquery]
    rfl

/-- Nothing but the name is handed to the engine. -/
def IsPlain (o : OpenOptions) : Prop := o.frozen = false ∧ o.fileSystem = none

theorem isPlain_of_ofName? {name : List Char} (h : ofName? name = .ok o) : o.IsPlain := by
  unfold ofName? at h
  split at h
  · cases h
    exact ⟨rfl, rfl⟩
  · split at h <;> cases h
    exact ⟨rfl, rfl⟩

theorem isPlain_locatorOf {path : String} (hpath : '?' ∉ path.toList)
    (h : ofLocator? (Installer.locatorOf path) = .ok o) : o.IsPlain := by
  rw [ofLocator?_locatorOf hpath] at h
  cases hname : ofName? (Locator.bare path.toList) with
  | error e => rw [hname] at h; cases h
  | ok o₀ =>
    rw [hname] at h
    cases h
    have hplain := isPlain_of_ofName? hname
    exact ⟨hplain.1, hplain.2⟩

end OpenOptions

namespace Locator

theorem bare_of_absent {cs : List Char} (h : ¬ scheme <+: cs) : bare cs = cs := by
  have hlong : ¬ longScheme <+: cs := fun hlong => h ((List.prefix_append scheme "//".toList).trans (longScheme_eq ▸ hlong))
  rw [bare, OpenOptions.stripAll_of_absent hlong, OpenOptions.stripAll_of_absent h]

theorem ofLocator?_of_bare {locator : String} {cs : List Char} (h : bare locator.toList = cs) :
    OpenOptions.ofLocator? locator = (OpenOptions.ofName? (cutAt '?' cs).1).bind fun o =>
      (((cutAt '?' cs).2.map queryParameters).getD []).foldlM OpenOptions.withParameter o := by
  subst h
  rfl

end Locator

/-! ## Percent escapes -/

namespace Text

/-- How a byte stands in an encoded text. -/
def encoded (b : UInt8) : Octet := ⟨b, !isAlphanumericByte b⟩

theorem hexValue?_digit : ∀ n < 16, hexValue? (UInt8.ofNat (if n < 10 then n + 48 else n + 55)) = some n := by
  decide

theorem octets_escapeByte (b : UInt8) (rest : List UInt8) :
    octets (escapeByte b ++ rest) = ⟨b, true⟩ :: octets rest := by
  have hlarge : b.toNat / 16 < 16 := by have := b.toNat_lt; omega
  have hsmall : b.toNat % 16 < 16 := Nat.mod_lt _ (by decide)
  have hbyte : UInt8.ofNat (b.toNat / 16 * 16 + b.toNat % 16) = b := by
    rw [Nat.div_add_mod', UInt8.ofNat_toNat]
  unfold escapeByte
  rw [List.cons_append, List.cons_append, List.cons_append, List.nil_append, octets,
    hexValue?_digit _ hlarge, hexValue?_digit _ hsmall]
  simp only [hbyte]

theorem octets_plain {b : UInt8} (h : b ≠ 37) (rest : List UInt8) : octets (b :: rest) = ⟨b, false⟩ :: octets rest := by
  rw [octets]
  rintro x y more heq -
  exact h heq

theorem octets_percentEncode (bytes rest : List UInt8) :
    octets (percentEncode bytes ++ rest) = bytes.map encoded ++ octets rest := by
  induction bytes with
  | nil => rfl
  | cons b bytes ih =>
    rw [percentEncode, List.flatMap_cons, List.append_assoc]
    by_cases h : isAlphanumericByte b
    · have hescape : b ≠ 37 := by
        rintro rfl
        exact absurd h (by decide)
      rw [if_pos h, List.singleton_append, octets_plain hescape]
      show _ :: octets (percentEncode bytes ++ rest) = _
      rw [ih]
      simp [encoded, h]
    · rw [if_neg h, octets_escapeByte]
      show _ :: octets (percentEncode bytes ++ rest) = _
      rw [ih]
      simp [encoded, h]

end Text

/-! ## What the engine reads -/

namespace Opening

variable {a : Access} {o o' : OpenOptions} {p p' : Opening} {name : List UInt8}

def fileScheme : List UInt8 := Utf8.encode "file:".toList

/-- The name in what follows the scheme of a file locator. -/
def nameBehindScheme (bytes : List UInt8) : List UInt8 :=
  partBytes (cutAt (mark '?') ((octets (cutHost bytes).2).takeWhile (· ≠ mark '#'))).1

/-- The name of the file in a name that is handed to the engine. -/
def spelled (name : List UInt8) : List UInt8 :=
  if fileScheme.isPrefixOf name then nameBehindScheme (name.drop fileScheme.length) else name

theorem name_of_withParameter {q : String × String} (h : p.withParameter q = .ok p') : p'.name = p.name := by
  unfold withParameter at h
  split at h
  case h_1 =>
    cases h
    rfl
  case h_2 =>
    split at h <;> cases h
    rfl
  case h_3 =>
    split at h
    · cases h
    · split at h <;> cases h
      rfl
  case h_4 =>
    cases h
    rfl

theorem name_of_foldlM {parameters : List (String × String)} (h : parameters.foldlM withParameter p = .ok p') :
    p'.name = p.name := by
  induction parameters generalizing p with
  | nil => cases h; rfl
  | cons q qs ih =>
    rw [List.foldlM_cons] at h
    cases hq : p.withParameter q with
    | error e => rw [hq] at h; cases h
    | ok p₁ =>
      rw [hq] at h
      exact (ih h).trans (name_of_withParameter hq)

/-- The access and the parameters say nothing about the name. -/
theorem name_of_ofName? (h : ofName? a name = .ok p) : p.name = spelled name := by
  change (if fileScheme.isPrefixOf name then ofFileLocator? usualFileSystem a (name.drop fileScheme.length)
    else .ok ⟨name, usualFileSystem, a, []⟩) = _ at h
  unfold spelled
  by_cases hscheme : fileScheme.isPrefixOf name
  · rw [if_pos hscheme] at h ⊢
    generalize name.drop fileScheme.length = bytes at h
    unfold ofFileLocator? at h
    dsimp only at h
    split at h
    · cases h
    · exact name_of_foldlM h
  · rw [if_neg hscheme] at h ⊢
    cases h
    rfl

theorem name_of_ofOptions? (h : ofOptions? o = .ok p) : 0 ∉ nameOf o ∧ p.name = spelled (nameOf o) := by
  change (if 0 ∈ nameOf o then .error .nulInName else ofName? (accessOf o) (nameOf o)) = _ at h
  by_cases hnul : 0 ∈ nameOf o
  · rw [if_pos hnul] at h
    cases h
  · rw [if_neg hnul] at h
    exact ⟨hnul, name_of_ofName? h⟩

theorem nameOf_of_isPlain (h : o.IsPlain) : nameOf o = Utf8.encode o.name.toList := by
  simp [nameOf, h.1, h.2]

/-- The first byte of an encoded text, if it has one, is a letter, a digit or a percent sign. -/
theorem cutHost_percentEncode (bytes rest : List UInt8) (h : rest.head? ≠ some 47) :
    cutHost (percentEncode bytes ++ rest) = ([], percentEncode bytes ++ rest) := by
  unfold cutHost
  split
  case h_2 => rfl
  case h_1 more heq =>
    exfalso
    cases bytes with
    | nil => exact h (by rw [show rest = _ from heq]; rfl)
    | cons b bytes =>
      rw [percentEncode, List.flatMap_cons, List.append_assoc] at heq
      by_cases hb : isAlphanumericByte b
      · rw [if_pos hb, List.singleton_append] at heq
        obtain ⟨rfl, -⟩ := List.cons.inj heq
        exact absurd hb (by decide)
      · rw [if_neg hb] at heq
        exact absurd (List.cons.inj heq).1 (by decide)

theorem mark_not_mem_encoded {c : Char} (hc : isAlphanumericByte (asciiByte c) = false) (bytes : List UInt8) :
    mark c ∉ bytes.map encoded := by
  intro h
  obtain ⟨b, -, heq⟩ := List.mem_map.1 h
  obtain ⟨rfl, hwritten⟩ := Octet.mk.inj heq
  simp [hc] at hwritten

/-- The name that is handed over with parameters is encoded, and so it is read as it is, up to a NUL. -/
theorem spelled_encoded (bytes query : List UInt8) :
    spelled (fileScheme ++ percentEncode bytes ++ Utf8.encode "?".toList ++ query) = bytes.takeWhile (· ≠ 0) := by
  have hquestion : Utf8.encode "?".toList = [63] := by decide
  have hoctets : octets (percentEncode bytes ++ 63 :: query) = bytes.map encoded ++ mark '?' :: octets query := by
    rw [octets_percentEncode, octets_plain (by decide)]
    rfl
  -- the question mark that ends the name is the first mark there is, since none is left in the name
  have hnext : (mark '?' :: octets query).takeWhile (· ≠ mark '#') =
      mark '?' :: (octets query).takeWhile (· ≠ mark '#') := by
    rw [List.takeWhile_cons_of_pos (by decide)]
  have hbytes : (bytes.map encoded).map (·.byte) = bytes := by simp [encoded, Function.comp_def]
  rw [spelled, if_pos (by simp [List.append_assoc]), List.append_assoc, List.append_assoc, List.drop_left, hquestion]
  unfold nameBehindScheme
  rw [List.singleton_append, cutHost_percentEncode _ _ (by simp), hoctets, takeWhile_append (mark_not_mem_encoded rfl bytes),
    hnext, cutAt_append (mark_not_mem_encoded rfl bytes), partBytes, hbytes]

theorem nameOf_of_not_isPlain (h : ¬ o.IsPlain) : ∃ query, nameOf o =
    fileScheme ++ percentEncode (Utf8.encode o.name.toList) ++ Utf8.encode "?".toList ++ query := by
  unfold OpenOptions.IsPlain at h
  unfold nameOf
  dsimp only
  rw [if_neg]
  · exact ⟨_, rfl⟩
  · cases hf : o.frozen <;> cases hs : o.fileSystem <;> simp [hf, hs] at h ⊢

/-- Two openings are of the same name if the options have the same and one of them, at least, is not taken for a
    locator. -/
theorem name_eq_of_name_eq (hname : o.name = o'.name) (hplain : o.IsPlain)
    (hread : o'.IsPlain ∨ ¬ fileScheme <+: Utf8.encode o'.name.toList)
    (h : ofOptions? o = .ok p) (h' : ofOptions? o' = .ok p') : p.name = p'.name := by
  obtain ⟨hnul, hspelled⟩ := name_of_ofOptions? h
  obtain ⟨-, hspelled'⟩ := name_of_ofOptions? h'
  rw [nameOf_of_isPlain hplain, hname] at hspelled hnul
  by_cases hplain' : o'.IsPlain
  · rw [hspelled, hspelled', nameOf_of_isPlain hplain']
  · obtain ⟨query, hquery⟩ := nameOf_of_not_isPlain hplain'
    have hliteral : spelled (Utf8.encode o'.name.toList) = Utf8.encode o'.name.toList :=
      if_neg fun hpre => hread.elim hplain' (· (List.isPrefixOf_iff_prefix.1 hpre))
    rw [hspelled, hliteral, hspelled', hquery, spelled_encoded, takeWhile_eq_self hnul]

theorem path_of_target {path : String} {manner : Manner} (h : p.target = .ok (.file path manner)) :
    path = String.ofList (Utf8.decodeLossy p.name) := by
  unfold target at h
  dsimp only at h
  split at h
  · cases h
  · split at h
    · cases h
    · split at h
      · split at h <;> cases h
      · cases h
        rfl

end Opening

/-! ## Targets -/

theorem Locator.target?_eq_ok {locator : String} {t : Target} (h : Locator.target? locator = .ok t) :
    ∃ o p, OpenOptions.ofLocator? locator = .ok o ∧ Opening.ofOptions? o = .ok p ∧ p.target = .ok t := by
  unfold Locator.target? at h
  split at h
  · cases h
  · split at h
    · cases h
    · split at h
      · cases h
      · rename_i o ho
        cases hp : Opening.ofOptions? o with
        | error e => rw [hp] at h; cases h
        | ok p =>
          rw [hp] at h
          exact ⟨o, p, ho, hp, h⟩

theorem Disk.target?_of_openLocator {d d' : Disk} {locator : String} {c : Connection}
    (h : d.openLocator locator = .ok (c, d')) : ∃ t, Locator.target? locator = .ok t ∧ d.openTarget t = .ok (c, d') := by
  unfold openLocator at h
  cases ht : Locator.target? locator with
  | error e => rw [ht] at h; cases h
  | ok t =>
    rw [ht] at h
    exact ⟨t, rfl, h⟩

theorem Disk.openLocator_of_target {d : Disk} {locator : String} {t : Target} (h : Locator.target? locator = .ok t) :
    d.openLocator locator = d.openTarget t := by
  unfold openLocator
  rw [h]
  rfl

/-! ## Pieces of work -/

namespace Installer

variable {path : String} {d d' : Disk} {c : Connection}

/-- The connection to a file that may be changed and is shared. -/
def openAt (place : Place) : Connection := .file ⟨place, true, false, .many, false⟩

theorem andThen_of_ok {w : Work} (next : Disk → Work) (h : w.result = .ok ()) :
    (w.andThen next).result = (next w.disk).result ∧ (w.andThen next).disk = (next w.disk).disk := by
  unfold Work.andThen
  rw [h]
  exact ⟨rfl, rfl⟩

theorem result_of_andThen {w : Work} {next : Disk → Work} (h : (w.andThen next).result = .ok ()) :
    w.result = .ok () ∧ (next w.disk).result = .ok () := by
  unfold Work.andThen at h
  split at h
  · rename_i hw
    rw [hw] at h
    cases h
  · exact ⟨‹_›, h⟩

theorem openLocator_of_applySchema (h : (applySchema path d).result = .ok ()) :
    ∃ c d', d.openLocator (locatorOf path) = .ok (c, d') := by
  unfold applySchema at h
  split at h
  · cases h
  · rename_i c d' hopen
    exact ⟨c, d', hopen⟩

theorem applySchema_of_openLocator (h : d.openLocator (locatorOf path) = .ok (c, d')) :
    (applySchema path d).result = (applySteps 1 Migration.all.length c d' Migration.all).result ∧
      (applySchema path d).disk = (applySteps 1 Migration.all.length c d' Migration.all).disk := by
  unfold applySchema
  rw [h]
  exact ⟨rfl, rfl⟩

end Installer

end Rollbook
