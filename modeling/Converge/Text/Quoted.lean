import Converge.Text.Visible

/-!
# Quoted text in messages

A message that shows a text given by a user puts it between quotation marks and escapes what a
reader could not see: line ends and tabs by name, other characters without a visible form by
their code point.

## Main definitions

* `Text.quoted`: a text as a message shows it.
-/

namespace Converge.Text

/-- The escape `\u` with the code point of a character in braces. -/
def codePointEscape (c : Char) : List Char :=
  ['\\', 'u', '\x7b'] ++ Nat.toDigits 16 c.toNat ++ ['\x7d']

/-- A character inside a quoted text. -/
def shown (c : Char) : List Char :=
  if c = '"' then ['\\', '"']
  else if c = '\\' then ['\\', '\\']
  else if c = '\n' then ['\\', 'n']
  else if c = '\r' then ['\\', 'r']
  else if c = '\t' then ['\\', 't']
  else if c = '\x00' then ['\\', '0']
  else if isVisible c then [c]
  else codePointEscape c

/-- A text between quotation marks, with everything escaped that would not show. -/
def quoted (s : String) : String := "\"" ++ String.ofList (s.toList.flatMap shown) ++ "\""

end Converge.Text
