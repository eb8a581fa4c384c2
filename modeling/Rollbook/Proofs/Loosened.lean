import Rollbook.Event.Payload
import Rollbook.Proofs.Spread
/-
  Rollbook.Proofs.Loosened — objects with their members in another order and among others.

  A value is loosened by putting the members of any of its objects in another order and by
  adding members to these under names that they do not have (`Loosened`). What is added is
  plain: null, a truth value, a text or an integer of 64 bits. It is damaged if besides
  that a member is taken from one of its objects, or stands there a second time with
  whatever value (`Damaged`).

  A name that an object has is looked up in a loosened object as before
  (`only?_of_among`), and there is a name that is not found in a damaged one
  (`exists_missing`). Loosening makes nothing deeper and nothing unreadable
  (`tame_of_loosened`).
-/

namespace Rollbook.Json

open Payload (Members)

/-! ## Loosening and damaging -/

/-- What may be the value of an added member. -/
inductive Plain : Json → Prop
  | null : Plain .null
  | bool (b : Bool) : Plain (.bool b)
  | text (s : String) : Plain (.text s)
  | integer (i : Int64) : Plain (.ofInt i.toInt)

/-- A plain member whose name is a text and none of the names in `ms`. -/
structure Foreign (ms : Members) (m : Option String × Json) : Prop where
  named : ∃ name, m.1 = some name
  unknown : ∀ m' ∈ ms, m.1 ≠ m'.1
  plain : Plain m.2

/-- An object that holds the members `kept`, in any order and among members that are foreign to `ms`. -/
def Among (ms kept : Members) (v : Json) : Prop :=
  ∃ added all, v = .object all ∧ (∀ m ∈ added, Foreign ms m) ∧ all.Perm (kept ++ added)

mutual

/-- The value with the members of its objects in any order and among others. -/
def Loosened : Json → Json → Prop
  | .object ms, v => ∃ kept, LoosenedMembers ms kept ∧ Among ms kept v
  | v, w => w = v

/-- The members with their values loosened. -/
def LoosenedMembers : Members → Members → Prop
  | [], kept => kept = []
  | (k, v) :: ms, kept => ∃ w rest, kept = (k, w) :: rest ∧ Loosened v w ∧ LoosenedMembers ms rest

end

/-- One of the members is not there any more, or its name is there a second time. -/
inductive Marred : Members → Members → Prop
  | removed {ms rest : Members} {m : Option String × Json} : ms.Perm (m :: rest) → Marred ms rest
  | repeated {ms : Members} {m : Option String × Json} : (∃ m' ∈ ms, m'.1 = m.1) → m.2.Digital →
      Marred ms (m :: ms)

mutual

/-- The value loosened, except that the members of one of its objects are marred. -/
def Damaged : Json → Json → Prop
  | .object ms, v => ∃ kept, ((∃ whole, LoosenedMembers ms whole ∧ Marred whole kept) ∨ DamagedMembers ms kept) ∧
      Among ms kept v
  | _, _ => False

/-- The members with one of their values damaged and the others loosened. -/
def DamagedMembers : Members → Members → Prop
  | [], _ => False
  | (k, v) :: ms, kept => ∃ w rest, kept = (k, w) :: rest ∧
      ((Damaged v w ∧ LoosenedMembers ms rest) ∨ (Loosened v w ∧ DamagedMembers ms rest))

end

theorem among_self (ms kept : Members) : Among ms kept (.object kept) :=
  ⟨[], kept, rfl, (fun _ h => nomatch h), by rw [List.append_nil]⟩

mutual

/-- A value as it stands is loosened. -/
theorem loosened_self : ∀ v : Json, Loosened v v
  | .null | .bool _ | .number _ | .string _ | .array _ => rfl
  | .object ms => ⟨ms, loosenedMembers_self ms, among_self ms ms⟩

theorem loosenedMembers_self : ∀ ms : Members, LoosenedMembers ms ms
  | [] => rfl
  | (_, v) :: ms => ⟨v, ms, rfl, loosened_self v, loosenedMembers_self ms⟩

end

/-! ## Names -/

section

variable {ms kept all : Members} {name : String}

theorem names_of_loosened : ∀ {ms kept : Members}, LoosenedMembers ms kept → kept.map (·.1) = ms.map (·.1)
  | [], _, h => by rw [show _ = [] from h]
  | (k, v) :: ms, _, ⟨w, rest, rfl, _, hrest⟩ => by
    rw [List.map_cons, List.map_cons, names_of_loosened hrest]

theorem names_of_damaged : ∀ {ms kept : Members}, DamagedMembers ms kept → kept.map (·.1) = ms.map (·.1)
  | [], _, h => h.elim
  | (k, v) :: ms, _, ⟨w, rest, rfl, hrest⟩ => by
    rw [List.map_cons, List.map_cons]
    rcases hrest with ⟨-, hrest⟩ | ⟨-, hrest⟩
    · rw [names_of_loosened hrest]
    · rw [names_of_damaged hrest]

theorem valuesOf_append (name : String) (ms ms' : Members) :
    valuesOf name (ms ++ ms') = valuesOf name ms ++ valuesOf name ms' := List.filterMap_append ..

theorem valuesOf_eq_nil (h : ∀ m ∈ ms, m.1 ≠ some name) : valuesOf name ms = [] := by
  refine List.filterMap_eq_nil_iff.2 fun m hm => ?_
  rw [if_neg (h m hm)]

/-- The order of the members does not matter. -/
theorem only?_perm {ms ms' : Members} (h : ms.Perm ms') : only? name ms = only? name ms' := by
  have hvalues : (valuesOf name ms).Perm (valuesOf name ms') := h.filterMap _
  unfold only?
  cases hms : valuesOf name ms with
  | nil => rw [hms] at hvalues; rw [hvalues.nil_eq]
  | cons v vs =>
    rw [hms] at hvalues
    cases vs with
    | nil => rw [List.singleton_perm.1 hvalues]
    | cons w vs =>
      have hlength := hvalues.length_eq
      match hms' : valuesOf name ms' with
      | [] => rfl
      | [u] => rw [hms'] at hlength; cases hlength
      | _ :: _ :: _ => rfl

/-- A name that the object has is not among those that were added. -/
theorem only?_of_among (h : Among ms kept (.object all)) (hname : some name ∈ ms.map (·.1)) :
    only? name all = only? name kept := by
  obtain ⟨added, all', heq, hforeign, hperm⟩ := h
  cases heq
  obtain ⟨m', hm', hm'name⟩ := List.mem_map.1 hname
  have hnone : valuesOf name added = [] := by
    refine valuesOf_eq_nil fun m hm he => ?_
    exact (hforeign m hm).unknown m' hm' (he.trans hm'name.symm)
  rw [only?_perm hperm]
  unfold only?
  rw [valuesOf_append, hnone, List.append_nil]

theorem keysSound_iff : keysSound ms = true ↔ ∀ m ∈ ms, m.1.isSome = true := List.all_eq_true

theorem keysSound_of_among (h : Among ms kept (.object all)) (hkept : keysSound kept = true) :
    keysSound all = true := by
  obtain ⟨added, all', heq, hforeign, hperm⟩ := h
  cases heq
  rw [keysSound_iff] at hkept ⊢
  intro m hm
  rcases List.mem_append.1 (hperm.mem_iff.1 hm) with hm | hm
  · exact hkept m hm
  · obtain ⟨name, hname⟩ := (hforeign m hm).named
    rw [hname]
    rfl

theorem keysSound_congr {ms ms' : Members} (h : ms.map (·.1) = ms'.map (·.1)) : keysSound ms = keysSound ms' := by
  have hall (ms : Members) : keysSound ms = (ms.map (·.1)).all Option.isSome := by
    rw [List.all_map]
    rfl
  rw [hall, hall, h]

/-- The names of an object are texts and no two of them the same. -/
structure Proper (ms : Members) : Prop where
  sound : keysSound ms = true
  nodup : (ms.map (·.1)).Nodup

theorem proper_record {fields : List (String × Json)} (h : (fields.map (·.1)).Nodup) :
    Proper (fields.map fun m => (some m.1, m.2)) := by
  refine ⟨keysSound_iff.2 fun m hm => ?_, ?_⟩
  · obtain ⟨field, -, rfl⟩ := List.mem_map.1 hm
    rfl
  · rw [List.map_map]
    have hsome : ((fields.map (·.1)).map some).Nodup :=
      List.Pairwise.map some (fun a b hne he => hne (Option.some.inj he)) h
    rwa [List.map_map] at hsome

theorem Proper.congr {ms ms' : Members} (h : Proper ms) (hnames : ms'.map (·.1) = ms.map (·.1)) : Proper ms' :=
  ⟨(keysSound_congr hnames).trans h.sound, hnames ▸ h.nodup⟩

theorem Proper.exists_name (h : Proper ms) {m : Option String × Json} (hm : m ∈ ms) : ∃ name, m.1 = some name :=
  Option.isSome_iff_exists.1 (keysSound_iff.1 h.sound m hm)

theorem Proper.only?_of_mem {v : Json} (h : Proper ms) (hv : (some name, v) ∈ ms) : only? name ms = some v := by
  obtain ⟨front, back, rfl⟩ := List.append_of_mem hv
  have hperm : (front ++ (some name, v) :: back).Perm ((some name, v) :: (front ++ back)) := List.perm_middle
  have hnodup := (hperm.map (·.1)).nodup_iff.1 h.nodup
  rw [List.map_cons, List.nodup_cons] at hnodup
  have hothers : valuesOf name (front ++ back) = [] :=
    valuesOf_eq_nil fun m hm he => hnodup.1 (List.mem_map.2 ⟨m, hm, he⟩)
  have hvalue : valuesOf name ((some name, v) :: (front ++ back)) = v :: valuesOf name (front ++ back) :=
    List.filterMap_cons_some (if_pos rfl)
  rw [only?_perm hperm]
  unfold only?
  rw [hvalue, hothers]

/-- Where a member is missing or stands twice, its name has no value of its own. -/
theorem exists_missing (h : Marred ms kept) (hms : Proper ms) :
    ∃ name, some name ∈ ms.map (·.1) ∧ only? name kept = none := by
  cases h with
  | @removed _ m hperm =>
    have hm : m ∈ ms := hperm.mem_iff.2 List.mem_cons_self
    obtain ⟨name, hname⟩ := hms.exists_name hm
    have hnames := (hperm.map (·.1)).nodup_iff.1 hms.nodup
    rw [List.map_cons, List.nodup_cons] at hnames
    refine ⟨name, hname ▸ List.mem_map_of_mem hm, ?_⟩
    have hnone : valuesOf name kept = [] :=
      valuesOf_eq_nil fun m' hm' he => hnames.1 (List.mem_map.2 ⟨m', hm', he.trans hname.symm⟩)
    unfold only?
    rw [hnone]
  | @repeated m hin _ =>
    obtain ⟨m', hm', he⟩ := hin
    obtain ⟨name, hname⟩ := hms.exists_name hm'
    refine ⟨name, hname ▸ List.mem_map_of_mem hm', ?_⟩
    have hvalue : m'.2 ∈ valuesOf name ms := List.mem_filterMap.2 ⟨m', hm', if_pos hname⟩
    have hcons : valuesOf name (m :: ms) = m.2 :: valuesOf name ms :=
      List.filterMap_cons_some (if_pos (he.symm.trans hname))
    unfold only?
    rw [hcons]
    cases hvalues : valuesOf name ms with
    | nil => rw [hvalues] at hvalue; cases hvalue
    | cons v vs => rfl

/-! ## What is looked up -/

theorem exists_loosened : ∀ {ms kept : Members}, LoosenedMembers ms kept → ∀ {k : Option String} {v : Json},
    (k, v) ∈ ms → ∃ w, (k, w) ∈ kept ∧ Loosened v w
  | (_, _) :: _, _, ⟨_, _, rfl, hv, hrest⟩, _, _, hmem => by
    rcases List.mem_cons.1 hmem with he | hmem
    · cases he
      exact ⟨_, List.mem_cons_self, hv⟩
    · obtain ⟨w, hw, hloosened⟩ := exists_loosened hrest hmem
      exact ⟨w, List.mem_cons_of_mem _ hw, hloosened⟩

theorem exists_damaged : ∀ {ms kept : Members}, DamagedMembers ms kept →
    ∃ k v w, (k, v) ∈ ms ∧ (k, w) ∈ kept ∧ Damaged v w
  | (k, v) :: _, _, ⟨w, _, rfl, .inl ⟨hv, _⟩⟩ => ⟨k, v, w, List.mem_cons_self, List.mem_cons_self, hv⟩
  | (_, _) :: _, _, ⟨_, _, rfl, .inr ⟨_, hrest⟩⟩ => by
    obtain ⟨k, v, w, hv, hw, hdamaged⟩ := exists_damaged hrest
    exact ⟨k, v, w, List.mem_cons_of_mem _ hv, List.mem_cons_of_mem _ hw, hdamaged⟩

/-- In a loosened object every member is found by its name, with its value loosened. -/
theorem exists_members_of_loosened {w : Json} (hms : Proper ms) (h : Loosened (.object ms) w) :
    ∃ all, w = .object all ∧ keysSound all = true ∧
      ∀ {name : String} {v : Json}, (some name, v) ∈ ms → ∃ w, only? name all = some w ∧ Loosened v w := by
  obtain ⟨kept, hkept, hamong⟩ := h
  obtain ⟨-, all, rfl, -⟩ := id hamong
  have hproper : Proper kept := hms.congr (names_of_loosened hkept)
  refine ⟨all, rfl, keysSound_of_among hamong hproper.sound, fun hv => ?_⟩
  obtain ⟨w, hw, hloosened⟩ := exists_loosened hkept hv
  refine ⟨w, ?_, hloosened⟩
  rw [only?_of_among hamong (List.mem_map_of_mem hv)]
  exact hproper.only?_of_mem hw

/-- In a damaged object a name has no value of its own, or all is as it was except that a value is damaged. -/
theorem missing_or_damaged {w : Json} (hms : Proper ms) (h : Damaged (.object ms) w) :
    ∃ all, w = .object all ∧
      ((∃ name, some name ∈ ms.map (·.1) ∧ only? name all = none) ∨
        ∃ kept, DamagedMembers ms kept ∧ Proper kept ∧
          ∀ {name : String}, some name ∈ ms.map (·.1) → only? name all = only? name kept) := by
  obtain ⟨kept, hkept, hamong⟩ := h
  obtain ⟨-, all, rfl, -⟩ := id hamong
  refine ⟨all, rfl, ?_⟩
  rcases hkept with ⟨whole, hwhole, hmarred⟩ | hkept
  · have hnames := names_of_loosened hwhole
    obtain ⟨name, hname, hnone⟩ := exists_missing hmarred (hms.congr hnames)
    rw [hnames] at hname
    exact Or.inl ⟨name, hname, (only?_of_among hamong hname).trans hnone⟩
  · exact Or.inr ⟨kept, hkept, hms.congr (names_of_damaged hkept), only?_of_among hamong⟩

/-- In a damaged object there is a member whose name is found with a damaged value, if at all. -/
theorem exists_members_of_damaged {w : Json} (hms : Proper ms) (h : Damaged (.object ms) w) :
    ∃ all, w = .object all ∧
      ∃ name v, (some name, v) ∈ ms ∧ ∀ w, only? name all = some w → Damaged v w := by
  obtain ⟨all, rfl, ⟨name, hname, hnone⟩ | ⟨kept, hkept, hproper, hfound⟩⟩ := missing_or_damaged hms h
  · obtain ⟨⟨_, v⟩, hv, rfl⟩ := List.mem_map.1 hname
    refine ⟨all, rfl, name, v, hv, fun w hw => ?_⟩
    rw [hnone] at hw
    cases hw
  · obtain ⟨k, v, w', hv, hw', hdamaged⟩ := exists_damaged hkept
    obtain ⟨name, rfl⟩ := hms.exists_name hv
    refine ⟨all, rfl, name, v, hv, fun w hw => ?_⟩
    rw [hfound (List.mem_map_of_mem hv), hproper.only?_of_mem hw'] at hw
    cases hw
    exact hdamaged

end

/-! ## What is added is readable -/

theorem le_ofDigitChars (ds : List Char) (kept : Nat) : kept ≤ Nat.ofDigitChars 10 ds kept := by
  induction ds generalizing kept with
  | nil => exact Nat.le_refl _
  | cons d ds ih =>
    rw [Nat.ofDigitChars_cons]
    exact Nat.le_trans (by omega) (ih _)

/-- Digits that make no figure too large are all kept. -/
theorem keepDigits_value (ds : List Char) (kept : Nat) (h : Nat.ofDigitChars 10 ds kept ≤ Numeral.largestFigure) :
    Numeral.keepDigits kept ds = (Nat.ofDigitChars 10 ds kept, []) := by
  induction ds generalizing kept with
  | nil => rfl
  | cons d ds ih =>
    have hnext : kept * 10 + Text.value [d] = 10 * kept + (d.toNat - '0'.toNat) := by
      simp [Text.value, Nat.ofDigitChars_cons, Nat.mul_comm]
    rw [Nat.ofDigitChars_cons] at h ⊢
    have hle := Nat.le_trans (le_ofDigitChars ds _) h
    rw [Numeral.keepDigits, hnext, if_pos hle, ih _ h]

theorem parts_ofInt {i : Int} (h : i.natAbs ≤ Numeral.largestFigure) : (Numeral.ofInt i).parts = (i.natAbs, 0) := by
  have hvalue : Nat.ofDigitChars 10 (Text.digits i.natAbs) 0 = i.natAbs := Text.value_digits i.natAbs
  have hkeep := keepDigits_value (Text.digits i.natAbs) 0 (by rw [hvalue]; exact h)
  rw [hvalue] at hkeep
  unfold Numeral.parts Numeral.ofInt
  simp [hkeep, Numeral.keepDigits]

/-- Rounding to a double at most doubles a number. -/
theorem toDouble_le (n : Nat) : Numeral.toDouble n ≤ 2 * n := by
  unfold Numeral.toDouble
  generalize hunit : Nat.pow 2 (n.log2 + 1 - 53) = unit
  have hle : n = 0 ∨ unit ≤ n := by
    rcases Nat.eq_zero_or_pos n with h | h
    · exact Or.inl h
    · refine Or.inr (Nat.le_trans ?_ (Nat.log2_self_le (Nat.ne_of_gt h)))
      rw [← hunit]
      exact Nat.pow_le_pow_right (by decide) (by omega)
  have hdiv := Nat.div_mul_le_self n unit
  dsimp only
  rcases hle with rfl | hle
  · simp
  · split
    · rw [Nat.succ_mul]
      omega
    · omega

/-- An integer that the figure has room for is a finite double. -/
theorem isFinite_ofInt {i : Int} (h : i.natAbs ≤ Numeral.largestFigure) : (Numeral.ofInt i).isFinite = true := by
  have hdouble := toDouble_le i.natAbs
  have hone : Numeral.toDouble (Nat.pow 10 (0 : Int).toNat) = 1 := by decide
  have hlimit : 2 * Numeral.largestFigure < Numeral.doubleLimit := by decide +kernel
  unfold Numeral.isFinite
  rw [parts_ofInt h]
  dsimp only
  rw [hone, Nat.mul_one]
  have hsmall : Numeral.toDouble i.natAbs < Numeral.doubleLimit := by omega
  simp [hsmall]

theorem isFinite_ofInt64 (i : Int64) : (Numeral.ofInt i.toInt).isFinite = true := by
  have hlow : -9223372036854775808 ≤ i.toInt := Int64.minValue_le_toInt i
  have hhigh : i.toInt ≤ 9223372036854775807 := Int64.toInt_le i
  refine isFinite_ofInt ?_
  unfold Numeral.largestFigure
  omega

/-- No deeper than the other value, and readable if that is. -/
structure Tame (v w : Json) : Prop where
  depth : w.depth ≤ v.depth
  sound : v.sound = true → w.sound = true
  digital : v.Digital → w.Digital

theorem Tame.refl (v : Json) : Tame v v := ⟨Nat.le_refl _, id, id⟩

theorem Tame.trans {u v w : Json} (h : Tame u v) (h' : Tame v w) : Tame u w :=
  ⟨Nat.le_trans h'.depth h.depth, fun hu => h'.sound (h.sound hu), fun hu => h'.digital (h.digital hu)⟩

theorem depthMembers_le {ms : Members} {n : Nat} : depthMembers ms ≤ n ↔ ∀ m ∈ ms, m.2.depth ≤ n := by
  induction ms with
  | nil => simp [depthMembers]
  | cons m ms ih => rw [depthMembers, Nat.max_le, ih, List.forall_mem_cons]

theorem soundMembers_iff {ms : Members} :
    soundMembers ms = true ↔ ∀ m ∈ ms, m.1.isSome = true ∧ m.2.sound = true := by
  induction ms with
  | nil => simp [soundMembers]
  | cons m ms ih => simp [soundMembers, ih, and_assoc]

theorem digitalMembers_iff {ms : Members} : DigitalMembers ms ↔ ∀ m ∈ ms, m.2.Digital := by
  induction ms with
  | nil => simp [DigitalMembers]
  | cons m ms ih => simp [DigitalMembers, ih]

theorem Plain.tame {v : Json} (h : Plain v) : v.depth = 0 ∧ v.sound = true ∧ v.Digital := by
  cases h with
  | null | bool b | text s => exact ⟨rfl, rfl, trivial⟩
  | integer i => exact ⟨rfl, isFinite_ofInt64 i, fun t ht => nomatch ht⟩

/-- A value in an object may be replaced by a tame one. -/
theorem tame_cons {k : Option String} {v w : Json} {ms rest : Members} (hv : Tame v w)
    (hms : Tame (.object ms) (.object rest)) : Tame (.object ((k, v) :: ms)) (.object ((k, w) :: rest)) := by
  have hdepth : depthMembers rest ≤ depthMembers ms := Nat.le_of_succ_le_succ hms.depth
  have hmax : max w.depth (depthMembers rest) ≤ max v.depth (depthMembers ms) :=
    Nat.max_le.2 ⟨Nat.le_trans hv.depth (Nat.le_max_left ..), Nat.le_trans hdepth (Nat.le_max_right ..)⟩
  refine ⟨Nat.succ_le_succ hmax, fun h => ?_, fun h => ⟨hv.digital h.1, hms.digital h.2⟩⟩
  obtain ⟨hk, hsound⟩ := Bool.and_eq_true_iff.1 h
  obtain ⟨hvalue, hothers⟩ := Bool.and_eq_true_iff.1 hsound
  exact Bool.and_eq_true_iff.2 ⟨hk, Bool.and_eq_true_iff.2 ⟨hv.sound hvalue, hms.sound hothers⟩⟩

/-- What is added to an object makes it neither deeper nor unreadable. -/
theorem tame_of_among {ms kept : Members} {v : Json} (h : Among ms kept v) : Tame (.object kept) v := by
  obtain ⟨added, all, rfl, hforeign, hperm⟩ := h
  have hmem : ∀ m ∈ all, m ∈ kept ∨ m ∈ added := fun m hm => List.mem_append.1 (hperm.mem_iff.1 hm)
  refine ⟨Nat.succ_le_succ (depthMembers_le.2 fun m hm => ?_), fun h => soundMembers_iff.2 fun m hm => ?_,
    fun h => digitalMembers_iff.2 fun m hm => ?_⟩ <;> rcases hmem m hm with hm | hm
  · exact depthMembers_le.1 (Nat.le_refl _) m hm
  · rw [(hforeign m hm).plain.tame.1]
    exact Nat.zero_le _
  · exact soundMembers_iff.1 h m hm
  · obtain ⟨name, hname⟩ := (hforeign m hm).named
    exact ⟨by rw [hname]; rfl, (hforeign m hm).plain.tame.2.1⟩
  · exact digitalMembers_iff.1 h m hm
  · exact (hforeign m hm).plain.tame.2.2

mutual

theorem tame_of_loosened : ∀ {v w : Json}, Loosened v w → Tame v w
  | .null, _, h | .bool _, _, h | .number _, _, h | .string _, _, h | .array _, _, h => by
    rw [show _ = _ from h]
    exact Tame.refl _
  | .object ms, _, ⟨_, hkept, hamong⟩ => (tame_of_loosenedMembers hkept).trans (tame_of_among hamong)

theorem tame_of_loosenedMembers : ∀ {ms kept : Members}, LoosenedMembers ms kept → Tame (.object ms) (.object kept)
  | [], _, h => by
    rw [show _ = [] from h]
    exact Tame.refl _
  | (_, _) :: _, _, ⟨_, _, rfl, hv, hrest⟩ => tame_cons (tame_of_loosened hv) (tame_of_loosenedMembers hrest)

end

theorem digital_of_marred {ms kept : Members} (h : Marred ms kept) (hms : DigitalMembers ms) : DigitalMembers kept := by
  rw [digitalMembers_iff] at hms ⊢
  cases h with
  | removed hperm => exact fun m hm => hms m (hperm.mem_iff.2 (List.mem_cons_of_mem _ hm))
  | repeated _ hdigital => exact List.forall_mem_cons.2 ⟨hdigital, hms⟩

mutual

theorem digital_of_damaged : ∀ {v w : Json}, Damaged v w → v.Digital → w.Digital
  | .null, _, h, _ | .bool _, _, h, _ | .number _, _, h, _ | .string _, _, h, _ | .array _, _, h, _ => h.elim
  | .object ms, _, ⟨_, hkept, hamong⟩, hv => by
    refine (tame_of_among hamong).digital ?_
    rcases hkept with ⟨whole, hwhole, hmarred⟩ | hkept
    · exact digital_of_marred hmarred ((tame_of_loosenedMembers hwhole).digital hv)
    · exact digital_of_damagedMembers hkept hv

theorem digital_of_damagedMembers : ∀ {ms kept : Members}, DamagedMembers ms kept → DigitalMembers ms →
    DigitalMembers kept
  | [], _, h, _ => h.elim
  | (_, _) :: _, _, ⟨_, _, rfl, .inl ⟨hv, hrest⟩⟩, hms =>
    ⟨digital_of_damaged hv hms.1, (tame_of_loosenedMembers hrest).digital hms.2⟩
  | (_, _) :: _, _, ⟨_, _, rfl, .inr ⟨hv, hrest⟩⟩, hms =>
    ⟨(tame_of_loosened hv).digital hms.1, digital_of_damagedMembers hrest hms.2⟩

end

end Rollbook.Json
