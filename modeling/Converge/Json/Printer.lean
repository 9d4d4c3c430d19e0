import Converge.Json.Basic

/-!
# Writing structured values

JSON text of a value, on one line or spread over lines with an indentation of two spaces. A
floating-point number is written with the fewest digits that read back as the same number.

## Main definitions

* `Json.quoted`: a text between quotation marks.
* `Json.compact`: a value on one line.
* `Json.pretty`: a value with one element or member on a line.
-/

namespace Converge.Json

/-- The lower-case hexadecimal digit of a number below sixteen. -/
def hexDigit (n : Nat) : Char := Nat.digitChar n

/-- A character inside a quoted text. -/
def escaped (c : Char) : List Char :=
  if c = '"' then ['\\', '"']
  else if c = '\\' then ['\\', '\\']
  else if c = '\n' then ['\\', 'n']
  else if c = '\r' then ['\\', 'r']
  else if c = '\t' then ['\\', 't']
  else if c = '\x08' then ['\\', 'b']
  else if c = '\x0c' then ['\\', 'f']
  else if c < ' ' then ['\\', 'u', '0', '0', hexDigit (c.toNat / 16), hexDigit (c.toNat % 16)]
  else [c]

/-- A text between quotation marks, with quotation marks, backslashes and control characters
escaped. -/
def quoted (s : String) : String := "\"" ++ String.ofList (s.toList.flatMap escaped) ++ "\""

mutual

/-- A value on one line, without spaces between tokens. -/
def compact : Json → String
  | null => "null"
  | bool b => if b then "true" else "false"
  | int n => toString n
  | float x => x.compact
  | str s => quoted s
  | arr elements => "[" ++ ",".intercalate (compactElements elements) ++ "]"
  | obj members => "\x7b" ++ ",".intercalate (compactMembers members) ++ "\x7d"

/-- The elements of an array, each on one line. -/
def compactElements : List Json → List String
  | [] => []
  | a :: as => compact a :: compactElements as

/-- The members of an object, each on one line. -/
def compactMembers : List (String × Json) → List String
  | [] => []
  | (name, a) :: as => (quoted name ++ ":" ++ compact a) :: compactMembers as

end

/-- Lines at one level of indentation between two brackets, on one line when there are none. -/
def block (opening closing : String) (indent : Nat) (lines : List String) : String :=
  if lines.isEmpty then opening ++ closing
  else
    let margin (n : Nat) := "\n" ++ String.ofList (List.replicate (2 * n) ' ')
    let inner := margin (indent + 1)
    opening ++ inner ++ ("," ++ inner).intercalate lines ++ margin indent ++ closing

mutual

/-- A value whose arrays and objects have one element or member on a line, `indent` levels deep. -/
def prettyAt (indent : Nat) : Json → String
  | arr elements => block "[" "]" indent (prettyElements (indent + 1) elements)
  | obj members => block "\x7b" "\x7d" indent (prettyMembers (indent + 1) members)
  | null => "null"
  | bool b => if b then "true" else "false"
  | int n => toString n
  | float x => x.compact
  | str s => quoted s

/-- The elements of an array, `indent` levels deep. -/
def prettyElements (indent : Nat) : List Json → List String
  | [] => []
  | a :: as => prettyAt indent a :: prettyElements indent as

/-- The members of an object, `indent` levels deep. -/
def prettyMembers (indent : Nat) : List (String × Json) → List String
  | [] => []
  | (name, a) :: as => (quoted name ++ ": " ++ prettyAt indent a) :: prettyMembers indent as

end

/-- A value with one element or member on a line. -/
def pretty (value : Json) : String := prettyAt 0 value

end Converge.Json
