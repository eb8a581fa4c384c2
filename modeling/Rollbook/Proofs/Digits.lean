import Rollbook.Text.Digits
/-
  Rollbook.Proofs.Digits — decimal digits read back from the front of a text.

  A run of digits is taken whole when the text goes on with something else, or when it
  has exactly the number of digits asked for (`takeNumber_append`). Numbers of a fixed
  width need the second, a year with a sign the first.
-/

namespace Rollbook.Text

/-- The text is at its end or goes on with a character that is no digit. -/
def NoDigit (cs : List Char) : Prop := ∀ c, cs.head? = some c → c.isDigit = false

theorem takeWhile_isDigit_of_noDigit {cs : List Char} (h : NoDigit cs) : cs.takeWhile Char.isDigit = [] := by
  cases cs with
  | nil => rfl
  | cons c cs => rw [List.takeWhile_cons, h c rfl]; rfl

theorem takeNumber_append {most : Nat} {ds rest : List Char} (hd : ∀ c ∈ ds, c.isDigit = true)
    (hne : ds ≠ []) (hl : ds.length ≤ most) (hr : NoDigit rest ∨ ds.length = most) :
    takeNumber most (ds ++ rest) = some (value ds, rest) := by
  have htail : (rest.take (most - ds.length)).takeWhile Char.isDigit = [] := by
    rcases hr with hr | hr
    · cases hk : most - ds.length with
      | zero => rfl
      | succ k =>
        refine takeWhile_isDigit_of_noDigit fun c hc => hr c ?_
        rwa [List.head?_take, if_neg (Nat.succ_ne_zero k)] at hc
    · rw [hr, Nat.sub_self]
      rfl
  unfold takeNumber
  rw [List.take_append, List.take_of_length_le hl, List.takeWhile_append_of_pos hd, htail, List.append_nil]
  cases ds with
  | nil => exact absurd rfl hne
  | cons d ds => exact congrArg (fun r => some (value (d :: ds), r)) (@List.drop_left _ (d :: ds) rest)

/-- Only the number 0 begins with a zero. -/
theorem digits_of_pos {n : Nat} (h : 0 < n) : ∃ d ds, digits n = d :: ds ∧ d ≠ '0' := by
  induction n using Nat.strongRecOn with
  | _ n ih =>
    unfold digits
    by_cases hn : n < 10
    · refine ⟨n.digitChar, [], Nat.toDigits_of_lt_base hn, fun h0 => ?_⟩
      exact absurd (Nat.digitChar_eq_zero.1 h0) (by omega)
    · obtain ⟨d, ds, hd, hne⟩ := ih (n / 10) (by omega) (by omega)
      refine ⟨d, ds ++ [(n % 10).digitChar], ?_, hne⟩
      rw [Nat.toDigits_of_base_le (by decide) (by omega)]
      exact congrArg (· ++ [(n % 10).digitChar]) hd

/-! ## Padded numbers -/

theorem isDigit_of_mem_padded {width n : Nat} {c : Char} (h : c ∈ padded width n) : c.isDigit = true := by
  rcases List.mem_append.1 h with h | h
  · rw [List.eq_of_mem_replicate h]
    rfl
  · exact isDigit_of_mem_digits h

theorem padded_ne_nil (width n : Nat) : padded width n ≠ [] := by
  intro h
  exact Nat.toDigits_ne_nil (List.append_eq_nil_iff.1 h).2

theorem value_padded (width n : Nat) : value (padded width n) = n := by
  unfold value padded
  rw [Nat.ofDigitChars_append, Nat.ofDigitChars_replicate_zero]
  exact value_digits n

theorem length_padded {width n : Nat} (hw : 0 < width) (h : n < Nat.pow 10 width) :
    (padded width n).length = width := by
  have hd : (digits n).length ≤ width := (Nat.length_toDigits_le_iff (by decide) hw).2 h
  unfold padded
  rw [List.length_append, List.length_replicate]
  omega

/-- A number of a fixed width is read back, whatever follows. -/
theorem takeNumber_padded {width n : Nat} (hw : 0 < width) (h : n < Nat.pow 10 width) (rest : List Char) :
    takeNumber width (padded width n ++ rest) = some (n, rest) := by
  have hl := length_padded hw h
  rw [takeNumber_append (fun _ => isDigit_of_mem_padded) (padded_ne_nil width n) (Nat.le_of_eq hl) (Or.inr hl),
    value_padded]

end Rollbook.Text
