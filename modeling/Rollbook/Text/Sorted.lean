/-
  Rollbook.Text.Sorted — texts in order.

  Texts are compared by code point, which is also the order of their bytes.
-/

namespace Rollbook.Text

/-- The texts in ascending order, each as often as it was given. -/
def sorted (texts : List String) : List String := texts.mergeSort fun a b => decide (a ≤ b)

end Rollbook.Text
