/-!
# Writing configuration texts

A document of sections with one text for each key, in TOML. A text is written in the notation that
needs no escapes: between quotation marks, else between apostrophes, else between three quotation
marks, else between three apostrophes. Only a text with control characters, or one that none of
these can hold, is written with escapes. A text of several lines starts on a line of its own.

## Main definitions

* `Toml.writtenText`: a text in the notation that suits it.
* `Toml.writtenSections`: a document.
-/

namespace Converge.Toml

/-! ### Texts -/

/-- Whether a character can only be written with an escape: a control character other than tab
and line feed. -/
def needsEscape (c : Char) : Bool := (c < ' ' && c != '\t' && c != '\n') || c == '\x7f'

/-- The length of the longest run of `mark`, given the length of the run before. -/
def longestRun (mark : Char) (run : Nat) : List Char → Nat
  | [] => run
  | c :: cs => if c = mark then longestRun mark (run + 1) cs else max run (longestRun mark 0 cs)

/-- Two or four hexadecimal digits in upper case. -/
def hexDigits (n : Nat) : List Char :=
  let digit (d : Nat) : Char := (Nat.digitChar d).toUpper
  ['0', '0', digit (n / 16), digit (n % 16)]

/-- The escape of a character, if it is not written as it is. -/
def escape? (multiline : Bool) (c : Char) : Option (List Char) :=
  if c = '\x08' then some ['\\', 'b']
  else if c = '\t' then some ['\\', 't']
  else if c = '\n' then if multiline then none else some ['\\', 'n']
  else if c = '\x0c' then some ['\\', 'f']
  else if c = '\r' then some ['\\', 'r']
  else if c = '\\' then some ['\\', '\\']
  else if needsEscape c then some (['\\', 'u'] ++ hexDigits c.toNat)
  else none

/-- Characters with escapes. A quotation mark is escaped when it follows two others in a text over
several lines, and always in a text on one line; `run` counts those just before. -/
def escaped (multiline : Bool) (run : Nat) : List Char → List Char
  | [] => []
  | c :: cs =>
    if c = '"' then
      if (if multiline then 2 else 0) ≤ run then '\\' :: '"' :: escaped multiline 0 cs
      else '"' :: escaped multiline (run + 1) cs
    else (escape? multiline c).getD [c] ++ escaped multiline 0 cs

/-- A way to write texts. -/
inductive TextStyle where
  | basic
  | literal
  | basicBlock
  | literalBlock
  deriving DecidableEq

/-- The way to write a text that suits it. -/
def styleFor (cs : List Char) : TextStyle :=
  let controls := cs.any needsEscape
  let backslash := cs.contains '\\'
  let lines := cs.contains '\n'
  let quotes := longestRun '"' 0 cs
  let apostrophes := longestRun '\'' 0 cs
  if !controls && !backslash && quotes = 0 && !lines then .basic
  else if !controls && apostrophes = 0 && !lines then .literal
  else if !controls && !backslash && quotes ≤ 2 then .basicBlock
  else if !controls && apostrophes ≤ 2 then .literalBlock
  else if lines then .basicBlock
  else .basic

/-- What follows three opening marks: a line end, which does not count, before a text of several
lines. -/
def blockStart (cs : List Char) : List Char := if cs.contains '\n' then ['\n'] else []

/-- A text in the notation that suits it. -/
def writtenText (text : String) : String :=
  let cs := text.toList
  String.ofList <| match styleFor cs with
    | .basic => ['"'] ++ escaped false 0 cs ++ ['"']
    | .literal => ['\''] ++ cs ++ ['\'']
    | .basicBlock => ['"', '"', '"'] ++ blockStart cs ++ escaped true 0 cs ++ ['"', '"', '"']
    | .literalBlock => ['\'', '\'', '\''] ++ blockStart cs ++ cs ++ ['\'', '\'', '\'']

/-! ### Documents -/

/-- The lines of a section: its header and an assignment for each key. -/
def writtenSection (name : String) (entries : List (String × String)) : String :=
  "[" ++ name ++ "]\n" ++ String.join (entries.map fun (key, text) =>
    key ++ " = " ++ writtenText text ++ "\n")

/-- A document of sections with blank lines between them. The names have to be keys that need no
quotes. -/
def writtenSections (sections : List (String × List (String × String))) : String :=
  "\n".intercalate (sections.map fun (name, entries) => writtenSection name entries)

end Converge.Toml
