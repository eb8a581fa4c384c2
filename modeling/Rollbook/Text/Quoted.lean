import Rollbook.Text.Visible
/-
  Rollbook.Text.Quoted — a text in double quotes, for messages.

  Double quotes and backslashes are escaped by a backslash, and so are single
  quotes where asked for. Of the other characters those that cannot be seen on
  their own are escaped, the usual controls by a letter and the rest by their code
  point in braces.
-/

namespace Rollbook.Text

def quotedChar (singleToo : Bool) (c : Char) : List Char :=
  if c = '"' || c = '\\' || (singleToo && c = '\'') then ['\\', c]
  else if c = '\x00' then ['\\', '0']
  else if c = '\t' then ['\\', 't']
  else if c = '\n' then ['\\', 'n']
  else if c = '\r' then ['\\', 'r']
  else if isVisible c then [c]
  else "\\u\x7b".toList ++ Nat.toDigits 16 c.toNat ++ "\x7d".toList

def quotedWith (singleToo : Bool) (s : String) : String :=
  String.ofList ('"' :: s.toList.flatMap (quotedChar singleToo) ++ ['"'])

/-- A text in quotes with its single quotes as they are. -/
def quoted (s : String) : String := quotedWith false s

end Rollbook.Text
