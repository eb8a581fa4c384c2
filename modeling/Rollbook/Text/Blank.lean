/-
  Rollbook.Text.Blank — the blank characters, and cutting them off the ends of
  a text.

  Blank means the White_Space property of Unicode, which is wider than the four
  blanks of ASCII text and narrower than it looks: the zero-width characters
  and the byte order mark are not blank.
-/

namespace Rollbook.Text

/-- The code points with the White_Space property, as closed ranges. -/
def blankRanges : List (Nat × Nat) :=
  [(0x09, 0x0D), (0x20, 0x20), (0x85, 0x85), (0xA0, 0xA0), (0x1680, 0x1680),
   (0x2000, 0x200A), (0x2028, 0x2029), (0x202F, 0x202F), (0x205F, 0x205F), (0x3000, 0x3000)]

def isBlank (c : Char) : Bool :=
  blankRanges.any fun range => range.1 ≤ c.toNat && c.toNat ≤ range.2

/-- The text from its first character that is not blank. -/
def dropBlanks (cs : List Char) : List Char := cs.dropWhile isBlank

/-- The text between its first and its last character that is not blank. -/
def trimChars (cs : List Char) : List Char := (dropBlanks (dropBlanks cs).reverse).reverse

def trim (s : String) : String := String.ofList (trimChars s.toList)

/-- A text without any character that is not blank. -/
def allBlank (s : String) : Bool := s.toList.all isBlank

end Rollbook.Text
