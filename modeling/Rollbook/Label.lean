/-
  Rollbook.Label — finite types whose values are written as fixed words.

  A labelled type lists its values and gives each one a word. A word is read
  back in two ways: `ofLabel?` takes it in any mixture of ASCII upper and lower
  case, `ofExactLabel?` only as it is written. Nothing is trimmed and no other
  letter is folded, so a word with a dotless i or a trailing blank is unknown.
-/

namespace Rollbook

/-- A finite type with a word for each of its values. -/
class Labelled (α : Type) where
  /-- Every value, in the order in which the type is listed. -/
  all : List α
  label : α → String

namespace Labelled

variable {α : Type} [Labelled α]

/-- The first value whose word is `text`, ASCII case aside. -/
def ofLabel? (text : String) : Option α :=
  (all : List α).find? fun a => (label a).toLower == text.toLower

/-- The first value whose word is exactly `text`. -/
def ofExactLabel? (text : String) : Option α :=
  (all : List α).find? fun a => label a == text

end Labelled

end Rollbook
