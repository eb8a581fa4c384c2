import Rollbook.Instant.Written
import Rollbook.Proofs.Digits
/-
  Rollbook.Proofs.Instant — an instant is read back from its text.

  A part of the text is read off the front and leaves what stands behind it; there is
  one lemma for each part. `ofString?_written` puts them together for every instant of
  the calendar, leap seconds and years with a sign among them.
-/

namespace Rollbook.Instant

open Rollbook.Text

theorem dropBlanks_cons {c : Char} {cs : List Char} (h : isBlank c = false) : dropBlanks (c :: cs) = c :: cs :=
  List.dropWhile_cons_of_neg (by rw [h]; exact Bool.false_ne_true)

theorem isBlank_of_isDigit {c : Char} (h : c.isDigit = true) : isBlank c = false := by
  have hd : 48 ≤ c.toNat ∧ c.toNat ≤ 57 := Char.isDigit_iff_toNat.1 h
  unfold isBlank blankRanges
  simp only [List.any_cons, List.any_nil, Bool.or_false, Bool.or_eq_false_iff, Bool.and_eq_false_iff,
    decide_eq_false_iff_not]
  omega

theorem dropBlanks_padded (width n : Nat) (rest : List Char) :
    dropBlanks (padded width n ++ rest) = padded width n ++ rest := by
  have hd : ∀ c ∈ padded width n, c.isDigit = true := fun _ => isDigit_of_mem_padded
  cases hp : padded width n with
  | nil => exact absurd hp (padded_ne_nil width n)
  | cons d ds => exact dropBlanks_cons (isBlank_of_isDigit (hd d (by rw [hp]; exact List.mem_cons_self)))

/-! ## Parts -/

theorem readMark_cons {c : Char} (h : isBlank c = false) (rest : List Char) :
    readMark c (c :: rest) = some rest := by
  unfold readMark
  rw [dropBlanks_cons h]
  exact if_pos rfl

theorem readPair_padded {n : Nat} (h : n < 100) (rest : List Char) :
    readPair (padded 2 n ++ rest) = some (n, rest) := by
  unfold readPair
  rw [dropBlanks_padded, takeNumber_padded (by decide) h]

/-- A year after its sign ends where the hyphen stands. -/
theorem takeNumber_signed (n : Nat) (rest : List Char) :
    takeNumber (padded 4 n ++ '-' :: rest).length (padded 4 n ++ '-' :: rest) = some (n, '-' :: rest) := by
  have hr : NoDigit ('-' :: rest) := by
    intro c hc
    cases hc
    rfl
  rw [takeNumber_append (fun _ => isDigit_of_mem_padded) (padded_ne_nil 4 n)
    (by rw [List.length_append]; exact Nat.le_add_right _ _) (Or.inl hr), value_padded]

theorem readYear_padded {n : Nat} (h : n ≤ 9999) (rest : List Char) :
    readYear (padded 4 n ++ rest) = some ((n : Int), rest) := by
  have ht : takeNumber 4 (padded 4 n ++ rest) = some (n, rest) :=
    takeNumber_padded (by decide) (Nat.lt_succ_of_le h) rest
  have hmem : ∀ c ∈ padded 4 n, c.isDigit = true := fun _ => isDigit_of_mem_padded
  unfold readYear
  rw [dropBlanks_padded]
  cases hp : padded 4 n with
  | nil => exact absurd hp (padded_ne_nil 4 n)
  | cons d ds =>
    have hd : d.isDigit = true := hmem d (by rw [hp]; exact List.mem_cons_self)
    rw [hp, List.cons_append] at ht
    rw [List.cons_append]
    split
    · rename_i he
      cases he
      cases hd
    · rename_i he
      cases he
      cases hd
    · rw [ht]
      rfl

theorem readYear_writeYear (year : Int) (rest : List Char) :
    readYear (writeYear year ++ '-' :: rest) = some (year, '-' :: rest) := by
  unfold writeYear
  by_cases h : 0 ≤ year ∧ year ≤ 9999
  · rw [if_pos h, readYear_padded (by omega), Int.toNat_of_nonneg h.1]
  · rw [if_neg h]
    by_cases hneg : year < 0
    · rw [if_pos hneg, List.cons_append]
      show (takeNumber _ _).map _ = _
      rw [takeNumber_signed, Option.map_some]
      exact congrArg (fun y => some (y, '-' :: rest)) (by omega)
    · rw [if_neg hneg, List.cons_append]
      show (takeNumber _ _).map _ = _
      rw [takeNumber_signed, Option.map_some]
      exact congrArg (fun y => some (y, '-' :: rest)) (by omega)

/-- A fraction of `width` digits that is followed by the zone. -/
theorem readFraction_padded {width n : Nat} (hw : 0 < width) (hle : width ≤ 9) (h : n < Nat.pow 10 width)
    (rest : List Char) :
    readFraction ('.' :: (padded width n ++ 'Z' :: rest)) = some (n * Nat.pow 10 (9 - width), 'Z' :: rest) := by
  have hr : NoDigit ('Z' :: rest) := by
    intro c hc
    cases hc
    rfl
  have hl := length_padded hw h
  have ht : takeNumber 9 (padded width n ++ 'Z' :: rest) = some (n, 'Z' :: rest) := by
    rw [takeNumber_append (fun _ => isDigit_of_mem_padded) (padded_ne_nil width n) (by omega) (Or.inl hr),
      value_padded]
  simp only [readFraction, ht, List.length_append, hl, Nat.add_sub_cancel]
  rfl

theorem readFraction_writeFraction {nano : Nat} (h : nano < 1000000000) (rest : List Char) :
    readFraction (writeFraction nano ++ 'Z' :: rest) = some (nano, 'Z' :: rest) := by
  unfold writeFraction
  by_cases h0 : nano = 0
  · rw [if_pos h0, h0]
    rfl
  rw [if_neg h0]
  by_cases h3 : nano % 1000000 = 0
  · have hlt : nano / 1000000 < 1000 := by omega
    have hread : nano / 1000000 * 1000000 = nano := by omega
    rw [if_pos h3, List.cons_append, readFraction_padded (by decide) (by decide) hlt]
    exact congrArg (fun n => some (n, 'Z' :: rest)) hread
  rw [if_neg h3]
  by_cases h6 : nano % 1000 = 0
  · have hlt : nano / 1000 < 1000000 := by omega
    have hread : nano / 1000 * 1000 = nano := by omega
    rw [if_pos h6, List.cons_append, readFraction_padded (by decide) (by decide) hlt]
    exact congrArg (fun n => some (n, 'Z' :: rest)) hread
  · rw [if_neg h6, List.cons_append, readFraction_padded (by decide) (by decide) h]
    exact congrArg (fun n => some (n, 'Z' :: rest)) (Nat.mul_one nano)

/-! ## The whole text -/

theorem ofCivil?_toCivil (t : Instant) : ofCivil? t.toCivil = some t := dif_pos t.valid

theorem daysInMonth_lt (year : Int) (month : Nat) : daysInMonth year month < 100 := by
  unfold daysInMonth
  split
  · split <;> decide
  · split <;> decide

/-- The text with its zone, a part at a time. -/
theorem writeLocal_append (t : Instant) (zone : List Char) :
    t.writeLocal ++ zone = writeYear t.year ++ '-' :: (padded 2 t.month ++ '-' :: (padded 2 t.day ++
      'T' :: (padded 2 t.hour ++ ':' :: (padded 2 t.minute ++ ':' :: (padded 2 t.second ++
        (writeFraction t.nano ++ zone)))))) := by
  unfold writeLocal
  simp only [List.append_assoc, List.cons_append]

theorem bind_of_eq {α β : Type} {x : Option α} {a : α} (h : x = some a) (f : α → Option β) : (x >>= f) = f a := by
  rw [h]
  rfl

/-- Every instant is read back from the text it is written as in events and answers. -/
theorem ofString?_written (t : Instant) : ofString? t.written = some t := by
  have hv := t.valid
  have hday := daysInMonth_lt t.year t.month
  have hmonth : t.month < 100 := Nat.lt_of_le_of_lt hv.last_month (by decide)
  have hdays : t.day < 100 := Nat.lt_of_le_of_lt hv.last_day hday
  have hhour : t.hour < 100 := Nat.lt_trans hv.hour (by decide)
  have hminute : t.minute < 100 := Nat.lt_trans hv.minute (by decide)
  have hsecond : t.second < 100 := Nat.lt_of_le_of_lt hv.second (by decide)
  have hhyphen : isBlank '-' = false := by decide
  have hcolon : isBlank ':' = false := by decide
  unfold ofString? written
  rw [String.toList_ofList, writeLocal_append]
  unfold read?
  refine (bind_of_eq (readYear_writeYear t.year _) _).trans ?_
  refine (bind_of_eq (readMark_cons hhyphen _) _).trans ?_
  refine (bind_of_eq (readPair_padded hmonth _) _).trans ?_
  refine (bind_of_eq (readMark_cons hhyphen _) _).trans ?_
  refine (bind_of_eq (readPair_padded hdays _) _).trans ?_
  refine (bind_of_eq (rfl : _ = some (padded 2 t.hour ++ _)) _).trans ?_
  refine (bind_of_eq (readPair_padded hhour _) _).trans ?_
  refine (bind_of_eq (readMark_cons hcolon _) _).trans ?_
  refine (bind_of_eq (readPair_padded hminute _) _).trans ?_
  refine (bind_of_eq (readMark_cons hcolon _) _).trans ?_
  refine (bind_of_eq (readPair_padded hsecond _) _).trans ?_
  refine (bind_of_eq (readFraction_writeFraction hv.nano []) _).trans ?_
  refine (bind_of_eq (rfl : _ = some ((0 : Int), ([] : List Char))) _).trans ?_
  exact (bind_of_eq (ofCivil?_toCivil t) _).trans rfl

end Rollbook.Instant
