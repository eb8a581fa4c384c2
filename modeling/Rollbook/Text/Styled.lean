/-
  Rollbook.Text.Styled — text with colours on a terminal.

  A style is started by a code and ended by the code that ends all styles. Where
  the text ends a style of its own, the style around it is started again.
-/

namespace Rollbook.Text

inductive Style where
  | bold
  | dim
  | red
  | green
  | boldRed
  deriving DecidableEq, Repr

namespace Style

def code : Style → String
  | .bold => "1"
  | .dim => "2"
  | .red => "31"
  | .green => "32"
  | .boldRed => "1;31"

def start (s : Style) : List Char := "\x1b[".toList ++ s.code.toList ++ ['m']

/-- The text with `start` behind every end of a style. -/
def restart (start : List Char) : List Char → List Char
  | '\x1b' :: '[' :: '0' :: 'm' :: cs => "\x1b[0m".toList ++ start ++ restart start cs
  | c :: cs => c :: restart start cs
  | [] => []

end Style

/-- A text in a style, or as it is. -/
def styled (coloured : Bool) (s : Style) (text : String) : String :=
  if coloured then
    String.ofList (s.start ++ Style.restart s.start text.toList ++ "\x1b[0m".toList)
  else text

end Rollbook.Text
