/-
  Rollbook.Keyed — lists of pairs used as tables with one value per key.

  `List.lookup` reads them and `put` writes them: it replaces the value of a key
  where it stands and puts a new key last.
-/

namespace Rollbook.Keyed

variable {κ α : Type} [BEq κ]

def put (key : κ) (value : α) : List (κ × α) → List (κ × α)
  | [] => [(key, value)]
  | (k, v) :: rest => if key == k then (k, value) :: rest else (k, v) :: put key value rest

theorem lookup_put [LawfulBEq κ] (key k : κ) (value : α) (table : List (κ × α)) :
    (put key value table).lookup k = if k == key then some value else table.lookup k := by
  induction table with
  | nil => simp only [put, List.lookup_cons, List.lookup_nil]; cases k == key <;> rfl
  | cons p rest ih =>
    obtain ⟨k', v'⟩ := p
    by_cases h : key == k'
    · have := eq_of_beq h
      subst this
      cases hk : k == key <;> simp [put, List.lookup_cons, hk]
    · cases hk : k == k' with
      | true =>
        have := eq_of_beq hk
        subst this
        have hne : (k == key) = false := by
          cases hc : k == key with
          | false => rfl
          | true => exact absurd (by rw [eq_of_beq hc]; simp) h
        simp [put, h, hne]
      | false => simp [put, h, List.lookup_cons, hk, ih]

end Rollbook.Keyed
