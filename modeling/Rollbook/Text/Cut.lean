/-
  Rollbook.Text.Cut — lists cut at an element.

  The element at which a list is cut belongs to no part.
-/

namespace Rollbook.Text

variable {α : Type} [DecidableEq α]

/-- What is before the first `c` and what is after it, if there is one. -/
def cutAt (c : α) (cs : List α) : List α × Option (List α) :=
  match cs.dropWhile (· ≠ c) with
  | [] => (cs, none)
  | _ :: rest => (cs.takeWhile (· ≠ c), some rest)

/-- The parts between the occurrences of `c`, at least one. -/
def splitAt (c : α) : List α → List (List α)
  | [] => [[]]
  | d :: ds =>
    if d = c then [] :: splitAt c ds
    else match splitAt c ds with
      | [] => [[d]]
      | part :: parts => (d :: part) :: parts

end Rollbook.Text
