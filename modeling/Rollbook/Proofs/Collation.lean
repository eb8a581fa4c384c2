import Mathlib.Data.Nat.Init
import Rollbook.Proofs.Instant
/-
  Rollbook.Proofs.Collation — how the texts of instants sort.

  A column of a table is sorted by the characters of its texts. Numbers of one width sort
  as numbers (`padded_lt`). A fraction has no fixed width, but it ends in a zone, whose
  sign is below every digit and below the point: a fraction that breaks off sorts before
  all that go on from there (`writeFraction_lt`). The hyphen after a year is below every
  digit too.

  So the texts in a column sort by the year as it is written and then by the rest of the
  instant (`stored_lt`), the second 60 of a minute included. Years from 0 to 9999 are
  written in four digits and sort as numbers (`writeYear_lt`). A year with a sign sorts
  before all of them (`writeYear_signed_lt`), also where it is the later one.
-/

namespace Rollbook

/-! ## Characters and digits -/

namespace Text

variable {a b x y : List Char}

/-- Texts that begin alike, or whose beginnings have the same length. -/
theorem append_lt (h : a.length = b.length) : a ++ x < b ++ y ↔ a < b ∨ a = b ∧ x < y := by
  induction a generalizing b with
  | nil =>
    obtain rfl := List.eq_nil_of_length_eq_zero h.symm
    simp
  | cons c a ih =>
    cases b with
    | nil => cases h
    | cons d b =>
      rw [List.cons_append, List.cons_append, List.cons_lt_cons_iff, List.cons_lt_cons_iff, ih (Nat.succ.inj h),
        List.cons.injEq, and_or_left, or_assoc, and_assoc]

/-- Texts that end where a mark stands, below all that can stand in them. -/
theorem append_mark_lt {mark : Char} (ha : ∀ c ∈ a, mark < c) (hb : ∀ c ∈ b, mark < c) :
    a ++ mark :: x < b ++ mark :: y ↔ a < b ∨ a = b ∧ x < y := by
  induction a generalizing b with
  | nil =>
    cases b with
    | nil => simp
    | cons d b =>
      have hmark : mark < d := hb d List.mem_cons_self
      exact iff_of_true (List.cons_lt_cons_iff.2 (Or.inl hmark)) (Or.inl (List.nil_lt_cons _ _))
  | cons c a ih =>
    obtain ⟨hc, ha⟩ := List.forall_mem_cons.1 ha
    cases b with
    | nil =>
      refine iff_of_false (fun hlt => ?_) ?_
      · rcases List.cons_lt_cons_iff.1 hlt with hlt | ⟨rfl, -⟩
        · exact Char.lt_asymm hc hlt
        · exact Char.lt_irrefl _ hc
      · rintro (hlt | ⟨he, -⟩)
        · exact List.not_lt_nil _ hlt
        · cases he
    | cons d b =>
      rw [List.cons_append, List.cons_append, List.cons_lt_cons_iff, List.cons_lt_cons_iff,
        ih ha (List.forall_mem_cons.1 hb).2, List.cons.injEq, and_or_left, or_assoc, and_assoc]

theorem digitChar_lt {i j : Nat} (hi : i < 10) (hj : j < 10) : i.digitChar < j.digitChar ↔ i < j := by
  have hall : ∀ i < 10, ∀ j < 10, i.digitChar < j.digitChar ↔ i < j := by decide
  exact hall i hi j hj

theorem lt_of_isDigit {mark c : Char} (hmark : mark < '0') (hc : c.isDigit = true) : mark < c :=
  UInt32.lt_of_lt_of_le hmark (UInt32.le_iff_toNat_le.2 (Char.isDigit_iff_toNat.1 hc).1)

/-! ### Numbers of one width -/

theorem padded_one {n : Nat} (h : n < 10) : padded 1 n = [n.digitChar] := by
  unfold padded digits
  rw [Nat.toDigits_of_lt_base h]
  rfl

/-- The last digit of a padded number. -/
theorem padded_succ {width : Nat} (hw : 0 < width) (n : Nat) :
    padded (width + 1) n = padded width (n / 10) ++ [(n % 10).digitChar] := by
  unfold padded digits
  by_cases hn : n < 10
  · have hzeros : width + 1 - 1 = (width - 1) + 1 := by omega
    rw [Nat.div_eq_of_lt hn, Nat.mod_eq_of_lt hn, Nat.toDigits_of_lt_base hn,
      Nat.toDigits_of_lt_base (by decide : 0 < 10), List.length_singleton, List.length_singleton, hzeros,
      List.replicate_succ']
    rfl
  · rw [Nat.toDigits_of_base_le (by decide) (Nat.not_lt.1 hn), List.length_append, List.length_singleton,
      Nat.add_sub_add_right, List.append_assoc]

theorem padded_inj {width m n : Nat} : padded width m = padded width n ↔ m = n := by
  constructor
  · intro h
    rw [← value_padded width m, h, value_padded]
  · rintro rfl
    rfl

theorem padded_lt {width m n : Nat} (hw : 0 < width) (hm : m < Nat.pow 10 width) (hn : n < Nat.pow 10 width) :
    padded width m < padded width n ↔ m < n := by
  induction width, hw using Nat.le_induction generalizing m n with
  | base =>
    rw [padded_one hm, padded_one hn, List.cons_lt_cons_iff, digitChar_lt hm hn]
    simp
  | succ width hw ih =>
    have hm' : m / 10 < Nat.pow 10 width := Nat.div_lt_of_lt_mul (by rwa [Nat.mul_comm])
    have hn' : n / 10 < Nat.pow 10 width := Nat.div_lt_of_lt_mul (by rwa [Nat.mul_comm])
    have hlength : (padded width (m / 10)).length = (padded width (n / 10)).length := by
      rw [length_padded hw hm', length_padded hw hn']
    rw [padded_succ hw, padded_succ hw, append_lt hlength, ih hm' hn', padded_inj, List.cons_lt_cons_iff,
      digitChar_lt (Nat.mod_lt _ (by decide)) (Nat.mod_lt _ (by decide))]
    simp only [List.lt_irrefl, and_false, or_false]
    omega

/-- A padded number is a first digit and others. -/
theorem exists_padded (width n : Nat) : ∃ d ds, padded width n = d :: ds ∧ d.isDigit = true ∧
    ∀ c ∈ ds, c.isDigit = true := by
  have hdigits : ∀ c ∈ padded width n, c.isDigit = true := fun _ => isDigit_of_mem_padded
  cases hp : padded width n with
  | nil => exact absurd hp (padded_ne_nil width n)
  | cons d ds =>
    rw [hp] at hdigits
    exact ⟨d, ds, rfl, List.forall_mem_cons.1 hdigits⟩

/-- What begins with a mark comes before what begins with a number. -/
theorem mark_lt_padded {mark : Char} (hmark : mark < '0') (width n : Nat) : mark :: x < padded width n ++ y := by
  obtain ⟨d, ds, hp, hd, -⟩ := exists_padded width n
  rw [hp]
  exact List.cons_lt_cons_iff.2 (Or.inl (lt_of_isDigit hmark hd))

/-- A padded number cut in two. -/
theorem padded_add {width width' : Nat} (hw : 0 < width) (hw' : 0 < width') (n : Nat) :
    padded (width + width') n = padded width (n / Nat.pow 10 width') ++ padded width' (n % Nat.pow 10 width') := by
  induction width', hw' using Nat.le_induction generalizing n with
  | base =>
    rw [padded_succ hw]
    exact congrArg _ (padded_one (Nat.mod_lt n (by decide))).symm
  | succ width' hw' ih =>
    have hpow : Nat.pow 10 (width' + 1) = Nat.pow 10 width' * 10 := rfl
    have hhead : n / 10 / Nat.pow 10 width' = n / (Nat.pow 10 width' * 10) := by
      rw [Nat.div_div_eq_div_mul, Nat.mul_comm]
    rw [← Nat.add_assoc, padded_succ (by omega), ih, padded_succ hw', hpow, hhead, Nat.mod_mul_left_div_self,
      Nat.mod_mul_left_mod, List.append_assoc]

theorem padded_append_lt {width m n : Nat} (hw : 0 < width) (hm : m < Nat.pow 10 width) (hn : n < Nat.pow 10 width) :
    padded width m ++ x < padded width n ++ y ↔ m < n ∨ m = n ∧ x < y := by
  have hlength : (padded width m).length = (padded width n).length := by rw [length_padded hw hm, length_padded hw hn]
  rw [append_lt hlength, padded_lt hw hm hn, padded_inj]

end Text

namespace Instant

open Rollbook.Text

/-! ## Fractions -/

section

variable {mark : Char} {rest : List Char} {m n : Nat}

/-- The groups of three digits up to the last one that is not zero, then the zone. -/
def groups (zone : List Char) : Nat → Nat → List Char
  | 0, _ => zone
  | k + 1, n => if n = 0 then zone else padded 3 (n / Nat.pow 1000 k) ++ groups zone k (n % Nat.pow 1000 k)

theorem groups_zero (zone : List Char) (k : Nat) : groups zone k 0 = zone := by
  cases k <;> rfl

theorem groups_succ (zone : List Char) (k : Nat) (h : n ≠ 0) :
    groups zone (k + 1) n = padded 3 (n / Nat.pow 1000 k) ++ groups zone k (n % Nat.pow 1000 k) := if_neg h

theorem writeFraction_append (zone : List Char) (n : Nat) :
    writeFraction n ++ zone = if n = 0 then zone else '.' :: groups zone 3 n := by
  unfold writeFraction
  by_cases h0 : n = 0
  · rw [if_pos h0, if_pos h0]
    rfl
  rw [if_neg h0, if_neg h0, groups_succ zone 2 h0]
  show _ = '.' :: (padded 3 (n / 1000000) ++ groups zone 2 (n % 1000000))
  by_cases h3 : n % 1000000 = 0
  · rw [if_pos h3, h3, groups_zero]
    rfl
  rw [if_neg h3, groups_succ zone 1 h3]
  show _ = '.' :: (padded 3 (n / 1000000) ++ (padded 3 (n % 1000000 / 1000) ++ groups zone 1 (n % 1000000 % 1000)))
  have hlast : n % 1000000 % 1000 = n % 1000 := by omega
  rw [hlast]
  by_cases h6 : n % 1000 = 0
  · have hcut : padded 6 (n / 1000) = padded 3 (n / 1000 / 1000) ++ padded 3 (n / 1000 % 1000) :=
      padded_add (by decide : 0 < 3) (by decide : 0 < 3) _
    have hmiddle : n / 1000 / 1000 = n / 1000000 ∧ n / 1000 % 1000 = n % 1000000 / 1000 := by omega
    rw [if_pos h6, h6, groups_zero, hcut, hmiddle.1, hmiddle.2, List.cons_append, List.append_assoc]
  · have hcut : padded 9 n = padded 3 (n / 1000000) ++ padded 6 (n % 1000000) :=
      padded_add (by decide : 0 < 3) (by decide : 0 < 6) _
    have hcut' : padded 6 (n % 1000000) = padded 3 (n % 1000000 / 1000) ++ padded 3 (n % 1000000 % 1000) :=
      padded_add (by decide : 0 < 3) (by decide : 0 < 3) _
    have hwhole : n % 1000 / Nat.pow 1000 0 = n % 1000 := Nat.div_one _
    rw [if_neg h6, hcut, hcut', hlast, groups_succ zone 0 h6, hwhole, List.cons_append, List.append_assoc,
      List.append_assoc]
    rfl

/-- The fraction that breaks off comes first. -/
theorem groups_lt (hmark : mark < '0') {k : Nat} (hlt : m < n) (hn : n < Nat.pow 1000 k) :
    groups (mark :: rest) k m < groups (mark :: rest) k n := by
  induction k generalizing m n with
  | zero =>
    have hone : Nat.pow 1000 0 = 1 := rfl
    omega
  | succ k ih =>
    unfold groups
    rw [if_neg (by omega : ¬ n = 0)]
    have hwidth : ∀ i < Nat.pow 1000 (k + 1), i / Nat.pow 1000 k < Nat.pow 10 3 := fun i hi =>
      Nat.div_lt_of_lt_mul hi
    split
    · exact mark_lt_padded hmark 3 _
    · rw [padded_append_lt (by decide) (hwidth m (Nat.lt_trans hlt hn)) (hwidth n hn)]
      rcases Nat.lt_or_eq_of_le (Nat.div_le_div_right (Nat.le_of_lt hlt)) with hhead | hhead
      · exact Or.inl hhead
      · refine Or.inr ⟨hhead, ih ?_ (Nat.mod_lt _ (Nat.pow_pos (by decide)))⟩
        have hm := Nat.div_add_mod m (Nat.pow 1000 k)
        have hn := Nat.div_add_mod n (Nat.pow 1000 k)
        rw [hhead] at hm
        omega

theorem writeFraction_lt (hm : m < 1000000000) (hn : n < 1000000000) :
    writeFraction m ++ '+' :: rest < writeFraction n ++ '+' :: rest ↔ m < n := by
  have hmono : ∀ {m n : Nat}, m < n → n < 1000000000 →
      writeFraction m ++ '+' :: rest < writeFraction n ++ '+' :: rest := by
    intro m n hlt hn
    rw [writeFraction_append, writeFraction_append, if_neg (by omega : ¬ n = 0)]
    split
    · exact List.cons_lt_cons_iff.2 (Or.inl (by decide))
    · exact List.cons_lt_cons_iff.2 (Or.inr ⟨rfl, groups_lt (by decide) hlt hn⟩)
  refine ⟨fun h => ?_, fun h => hmono h hn⟩
  rcases Nat.lt_trichotomy m n with hlt | rfl | hlt
  · exact hlt
  · exact absurd h (List.lt_irrefl _)
  · exact absurd h (List.lt_asymm (hmono hlt hm))

end

/-! ## Years -/

section

variable {year year' : Int} {a b : List Char}

/-- The year is written in four digits and without a sign. -/
def Ordinary (year : Int) : Prop := 0 ≤ year ∧ year ≤ 9999

theorem exists_writeYear (year : Int) : ∃ c ds, writeYear year = c :: ds ∧ ∀ d ∈ ds, d.isDigit = true := by
  unfold writeYear
  split
  · obtain ⟨c, ds, hp, -, hds⟩ := exists_padded 4 year.toNat
    exact ⟨c, ds, hp, hds⟩
  · exact ⟨_, _, rfl, fun _ => isDigit_of_mem_padded⟩

theorem writeYear_inj : writeYear year = writeYear year' ↔ year = year' := by
  constructor
  · intro h
    have hread := readYear_writeYear year []
    rw [h, readYear_writeYear] at hread
    exact (congrArg Prod.fst (Option.some.inj hread)).symm
  · rintro rfl
    rfl

theorem writeYear_append_lt : writeYear year ++ '-' :: a < writeYear year' ++ '-' :: b ↔
    writeYear year < writeYear year' ∨ year = year' ∧ a < b := by
  rw [← writeYear_inj]
  obtain ⟨c, ds, hyear, hds⟩ := exists_writeYear year
  obtain ⟨c', ds', hyear', hds'⟩ := exists_writeYear year'
  have hmark : ∀ d : Char, d.isDigit = true → '-' < d := fun d => lt_of_isDigit (by decide)
  rw [hyear, hyear', List.cons_append, List.cons_append, List.cons_lt_cons_iff, List.cons_lt_cons_iff,
    append_mark_lt (fun d hd => hmark d (hds d hd)) (fun d hd => hmark d (hds' d hd)), List.cons.injEq, and_or_left,
    or_assoc, and_assoc]

theorem writeYear_lt (h : Ordinary year) (h' : Ordinary year') : writeYear year < writeYear year' ↔ year < year' := by
  obtain ⟨hpos, hle⟩ := h
  obtain ⟨hpos', hle'⟩ := h'
  have hdigits : year.toNat < 10000 ∧ year'.toNat < 10000 := by omega
  unfold writeYear
  rw [if_pos ⟨hpos, hle⟩, if_pos ⟨hpos', hle'⟩, padded_lt (by decide) hdigits.1 hdigits.2]
  omega

theorem writeYear_signed_lt (h : ¬ Ordinary year) (h' : Ordinary year') : writeYear year < writeYear year' := by
  unfold Ordinary at h h'
  unfold writeYear
  rw [if_neg h, if_pos h', ← List.append_nil (padded 4 year'.toNat)]
  refine mark_lt_padded ?_ 4 _
  split <;> decide

end

/-! ## Instants -/

theorem toList_stored (t : Instant) : t.stored.toList = writeYear t.year ++ '-' :: (padded 2 t.month ++
    '-' :: (padded 2 t.day ++ 'T' :: (padded 2 t.hour ++ ':' :: (padded 2 t.minute ++ ':' :: (padded 2 t.second ++
      (writeFraction t.nano ++ '+' :: "00:00".toList)))))) := by
  unfold stored
  rw [String.toList_ofList, writeLocal_append]
  rfl

/-- Every field but the year and the fraction has two digits. -/
theorem twoDigits (t : Instant) :
    t.month < 100 ∧ t.day < 100 ∧ t.hour < 100 ∧ t.minute < 100 ∧ t.second < 100 := by
  have hv := t.valid
  exact ⟨Nat.lt_of_le_of_lt hv.last_month (by decide), Nat.lt_of_le_of_lt hv.last_day (daysInMonth_lt t.year t.month),
    Nat.lt_trans hv.hour (by decide), Nat.lt_trans hv.minute (by decide), Nat.lt_of_le_of_lt hv.second (by decide)⟩

/-- Texts in a column sort by the year as it is written, and within a year as instants. -/
theorem stored_lt {t u : Instant} :
    t.stored < u.stored ↔ writeYear t.year < writeYear u.year ∨ t.year = u.year ∧ order t u = .lt := by
  obtain ⟨hmonth, hday, hhour, hminute, hsecond⟩ := t.twoDigits
  obtain ⟨hmonth', hday', hhour', hminute', hsecond'⟩ := u.twoDigits
  show t.stored.toList < u.stored.toList ↔ _
  rw [toList_stored, toList_stored, writeYear_append_lt]
  refine or_congr_right (and_congr_right fun hyear => ?_)
  rw [padded_append_lt (by decide) hmonth hmonth', List.cons_lt_cons_self,
    padded_append_lt (by decide) hday hday', List.cons_lt_cons_self,
    padded_append_lt (by decide) hhour hhour', List.cons_lt_cons_self,
    padded_append_lt (by decide) hminute hminute', List.cons_lt_cons_self,
    padded_append_lt (by decide) hsecond hsecond', writeFraction_lt t.valid.nano u.valid.nano]
  unfold order
  rw [Int.compare_eq_eq.2 hyear]
  simp only [Ordering.then_eq_lt, Nat.compare_eq_lt, Nat.compare_eq_eq, Ordering.eq_then]

end Instant

end Rollbook
