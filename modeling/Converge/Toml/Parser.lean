import Converge.Text.Digits
import Converge.Text.Reader
import Converge.Toml.Document

/-!
# Reading configuration texts

TOML 1.0 text as a value. Arrays and tables in braces may be nested up to a limit, and so may the
parts of a dotted key.

## Main definitions

* `Toml.value`: a value.
* `Toml.statement`: a line of a document.
* `Toml.parse?`: the table that a text denotes.
-/

namespace Converge.Toml

open Reader

/-- The levels of nesting, and the parts of a dotted key, that are accepted. -/
def nestingLimit : Nat := 79

/-! ### Space and comments -/

/-- Spaces and tabs separate tokens on a line. -/
def isSpace (c : Char) : Bool := c == ' ' || c == '\t'

/-- Skip spaces and tabs. -/
def space : Reader Unit := skipWhile isSpace

/-- Whether a character may stand in a comment or a text: a tab, or no control character. -/
def isPrintable (c : Char) : Bool := c == '\t' || (' ' ≤ c && c != '\x7f')

/-- A line end. -/
def newline : Reader Unit := do
  let _ ← skip? '\r'
  char '\n'

/-- Whether a line end is next. -/
def atNewline : Reader Bool := do
  return (← ahead ['\n']) || (← ahead ['\r', '\n'])

/-- A comment, if one is next. -/
def comment? : Reader Unit := do
  if ← skip? '#' then skipWhile isPrintable

/-- What may follow a statement on its line, and the end of the line or of the text. -/
def lineEnd : Reader Unit := do
  space
  comment?
  if !(← rest).isEmpty then newline

/-- Skip spaces and line ends. -/
def blankLines : Reader Unit := do
  let _ ← many do
    space
    if ← atNewline then
      newline
      return some ()
    else return none

/-- Skip spaces, comments and line ends. -/
def gap : Reader Unit := do
  blankLines
  let _ ← many do
    if ← ahead ['#'] then
      comment?
      if !(← rest).isEmpty then newline
      blankLines
      return some ()
    else return none

/-! ### Texts -/

/-- The character whose code point is given by `n` hexadecimal digits. -/
def codePoint : Nat → Nat → Reader Char
  | 0, code => if h : code.isValidChar then pure (Char.ofNatAux code h) else fail
  | n + 1, code => do
    match Text.hexValue? (← next) with
    | some d => codePoint n (code * 16 + d)
    | none => fail

/-- The character after a backslash. -/
def escape : Reader Char := do
  match ← next with
  | 'b' => return '\x08'
  | 't' => return '\t'
  | 'n' => return '\n'
  | 'f' => return '\x0c'
  | 'r' => return '\r'
  | '"' => return '"'
  | '\\' => return '\\'
  | 'u' => codePoint 4 0
  | 'U' => codePoint 8 0
  | _ => fail

/-- A text on one line between quotation marks, with escapes. -/
def basicText : Reader String := do
  char '"'
  let cs ← many do
    let c ← next
    if c = '"' then return none
    else if c = '\\' then return some (← escape)
    else if isPrintable c then return some c
    else fail
  return String.ofList cs

/-- A text on one line between apostrophes, without escapes. -/
def literalText : Reader String := do
  char '\''
  let cs ← many do
    let c ← next
    if c = '\'' then return none
    else if isPrintable c then return some c
    else fail
  return String.ofList cs

/-- Skip the three marks that end a text, if they are next, and tell whether they were. Up to two
more marks before them belong to the text. -/
def closing? (mark : Char) : Reader Bool := fun s =>
  let marks := (s.takeWhile (· == mark)).length
  if marks = 3 then some (true, s.drop 3)
  else if marks < 6 then some (false, s)
  else none

/-- A backslash at the end of a line: skip the line end and all blanks after it. -/
def joinLines : Reader Unit := do
  space
  newline
  blankLines

/-- A piece of a text between three marks, or none at the closing ones. `escapes` tells whether a
backslash starts an escape. -/
def blockPiece? (mark : Char) (escapes : Bool) : Reader (Option (List Char)) := do
  if ← closing? mark then return none
  if ← atNewline then
    newline
    return some ['\n']
  let c ← next
  if c = '\\' && escapes then
    let continues := match ← rest with
      | d :: _ => isSpace d || d == '\n' || d == '\r'
      | [] => false
    if continues then
      joinLines
      return some []
    else return some [← escape]
  else if isPrintable c then return some [c]
  else fail

/-- A text between three marks. A line end just after the opening ones does not count. -/
def textBlock (mark : Char) (escapes : Bool) : Reader String := do
  word [mark, mark, mark]
  if ← atNewline then newline
  let pieces ← many (blockPiece? mark escapes)
  return String.ofList pieces.flatten

/-- A text in any of the four notations. -/
def text : Reader String := do
  if ← ahead ['"', '"', '"'] then textBlock '"' true
  else if ← ahead ['\'', '\'', '\''] then textBlock '\'' false
  else if ← ahead ['"'] then basicText
  else literalText

/-! ### Keys -/

/-- Whether a character may stand in a key without quotes. -/
def isBareKey (c : Char) : Bool := c.isAlphanum || c == '_' || c == '-'

/-- One part of a key. -/
def simpleKey : Reader String := do
  match ← peek? with
  | some '"' => basicText
  | some '\'' => literalText
  | _ => return String.ofList (← takeWhile1 isBareKey)

/-- A key of parts with dots between them. -/
def dottedKey : Reader (List String) := do
  space
  let first ← simpleKey
  space
  let others ← many do
    if ← skip? '.' then
      space
      let part ← simpleKey
      space
      return some part
    else return none
  if others.length < nestingLimit then return first :: others else fail

/-! ### Numbers -/

/-- Digits that satisfy `p`, with single underscores between them. -/
def digits (p : Char → Bool) : Reader (List Char) := do
  let first ← satisfying p
  let others ← many do
    match ← peek? with
    | some '_' =>
      let _ ← next
      return some (← satisfying p)
    | some c => if p c then return some (← next) else return none
    | none => return none
  return first :: others

/-- The smallest natural number that is too large for an integer. -/
def integerLimit : Nat := 0x8000000000000000

/-- The number that digits of a base denote, if it fits in 63 bits. -/
def wordOfDigits (base : Nat) (ds : List Char) : Reader Toml :=
  let n := ds.foldl (fun n c => n * base + (Text.hexValue? c).getD 0) 0
  if n < integerLimit then pure (.integer n) else fail

/-- The number nearest to `m · 10 ^ e`; the digits of `m` are counted to bound the work. -/
def decimal (negative : Bool) (m : Nat) (e : Int) : Binary64 :=
  let size := e + (toString m).length
  if m = 0 ∨ size < -400 then .ofParts negative 0
  else if 400 < size then .ofParts negative Binary64.infinity
  else if e < 0 then .ofRatio negative m (Nat.pow 10 (-e).toNat)
  else .ofRatio negative (m * Nat.pow 10 e.toNat) 1

/-- The exponent after `e` or `E`. -/
def exponentPart : Reader Int := do
  let negative ← skip? '-'
  if !negative then
    let _ ← skip? '+'
  let n : Nat := Text.natOfDigits (← digits Char.isDigit)
  return if negative then -n else n

/-- A decimal number. A whole number has 64 bits and no leading zero; a number with a point or an
exponent must not be too large. -/
def decimalNumber : Reader Toml := do
  let negative ← skip? '-'
  let positive ← if negative then pure false else skip? '+'
  match ← peek? with
  | some 'i' =>
    word ['i', 'n', 'f']
    return .float (.ofParts negative Binary64.infinity)
  | some 'n' =>
    word ['n', 'a', 'n']
    return .float (.ofParts negative (Binary64.infinity + Binary64.exponentUnit / 2))
  | _ =>
    let leadingZero ← ahead ['0']
    let whole ← if leadingZero then List.singleton <$> next else digits Char.isDigit
    if leadingZero && !(negative || positive) then
      match ← peek? with
      | some 'x' =>
        let _ ← next
        return ← wordOfDigits 16 (← digits fun c => (Text.hexValue? c).isSome)
      | some 'o' =>
        let _ ← next
        return ← wordOfDigits 8 (← digits fun c => '0' ≤ c && c ≤ '7')
      | some 'b' =>
        let _ ← next
        return ← wordOfDigits 2 (← digits fun c => c == '0' || c == '1')
      | _ => pure ()
    let point ← skip? '.'
    let fraction ← if point then digits Char.isDigit else pure []
    let mark ← peek?
    let scientific := mark = some 'e' || mark = some 'E'
    let e ← if scientific then do
        let _ ← next
        exponentPart
      else pure 0
    let m := Text.natOfDigits (whole ++ fraction)
    if point || scientific then
      let x := decimal negative m (e - fraction.length)
      if x.isInfinite && !negative then fail else return .float x
    else if negative then
      if m ≤ integerLimit then return .integer (-m) else fail
    else if m < integerLimit then return .integer m
    else fail

/-! ### Dates and times -/

/-- A number of two digits between `low` and `high`. -/
def twoDigits (low high : Nat) : Reader Nat := do
  let a ← satisfying Char.isDigit
  let b ← satisfying Char.isDigit
  let n := Text.natOfDigits [a, b]
  if low ≤ n && n ≤ high then return n else fail

/-- The number of days of a month. -/
def daysOfMonth (year month : Nat) : Nat :=
  if month = 2 then
    if year % 4 = 0 && (year % 100 ≠ 0 || year % 400 = 0) then 29 else 28
  else if month = 4 || month = 6 || month = 9 || month = 11 then 30
  else 31

/-- A time of day; seconds may have a fraction, and there are leap seconds. -/
def timeOfDay : Reader Unit := do
  let _ ← twoDigits 0 23
  char ':'
  let _ ← twoDigits 0 59
  char ':'
  let _ ← twoDigits 0 60
  if ← skip? '.' then
    let _ ← takeWhile1 Char.isDigit

/-- The distance from universal time, if it is given. -/
def offset? : Reader Unit := do
  match ← peek? with
  | some 'Z' | some 'z' =>
    let _ ← next
  | some '+' | some '-' =>
    let _ ← next
    let _ ← twoDigits 0 23
    char ':'
    let _ ← twoDigits 0 59
  | _ => pure ()

/-- Whether what follows looks like a time of day. -/
def looksLikeTime : List Char → Bool
  | a :: b :: ':' :: _ => a.isDigit && b.isDigit
  | _ => false

/-- Whether what follows looks like a date. -/
def looksLikeDate : List Char → Bool
  | a :: b :: c :: d :: '-' :: _ => a.isDigit && b.isDigit && c.isDigit && d.isDigit
  | _ => false

/-- A date, and a time after it if there is one. -/
def date : Reader Unit := do
  let century ← twoDigits 0 99
  let year := century * 100 + (← twoDigits 0 99)
  char '-'
  let month ← twoDigits 1 12
  char '-'
  let _ ← twoDigits 1 (daysOfMonth year month)
  match ← rest with
  | c :: after =>
    if (c == 'T' || c == 't' || c == ' ') && looksLikeTime after then
      let _ ← next
      timeOfDay
      offset?
  | [] => pure ()

/-- What `reader` consumes, as it is written. -/
def written (reader : Reader Unit) : Reader Toml := do
  let before ← rest
  reader
  let after ← rest
  return .datetime (String.ofList (before.take (before.length - after.length)))

/-- A date, a time of day, or a number. -/
def dateOrNumber : Reader Toml := do
  let s ← rest
  if looksLikeDate s then written date
  else if looksLikeTime s then written timeOfDay
  else decimalNumber

/-! ### Values -/

/-- A value with at most `depth` levels of nested arrays and tables in braces. -/
def value (depth : Nat) : Reader Toml := do
  match ← peek? with
  | some '"' | some '\'' => return .string (← text)
  | some 't' =>
    word ['t', 'r', 'u', 'e']
    return .boolean true
  | some 'f' =>
    word ['f', 'a', 'l', 's', 'e']
    return .boolean false
  | some '[' =>
    match depth with
    | 0 => fail
    | depth + 1 =>
      char '['
      return .array (← listUntil ']' true gap (value depth))
  | some '\x7b' =>
    match depth with
    | 0 => fail
    | depth + 1 =>
      char '\x7b'
      let assignments ← listUntil '\x7d' false space do
        let path ← dottedKey
        char '='
        space
        return (path, ← value depth)
      match ofAssignments assignments with
      | some entries => return .table .braces entries
      | none => fail
  | some _ => dateOrNumber
  | none => fail

/-! ### Documents -/

/-- A statement and the end of its line. -/
def statement : Reader Statement := do
  let statement ←
    if ← skipWord? ['[', '['] then do
      let path ← dottedKey
      word [']', ']']
      pure (Statement.arrayHeader path)
    else do
      -- Only now: the condition of an `else if` would be read before the first one is decided.
      if ← skip? '[' then do
        let path ← dottedKey
        char ']'
        pure (Statement.header path)
      else do
        let path ← dottedKey
        char '='
        space
        pure (Statement.assign path (← value nestingLimit))
  lineEnd
  return statement

/-- The next statement of a document, or none at its end. -/
def nextStatement? : Reader (Option Statement) := do
  gap
  if (← rest).isEmpty then return none
  return some (← statement)

/-- The statements of a document. -/
def statements : Reader (List Statement) := many nextStatement?

/-- The table that a text denotes. A byte order mark before the text does not count. -/
def parse? (source : String) : Option Toml :=
  (run? (do let _ ← skip? '\uFEFF'; statements) source).bind ofStatements

end Converge.Toml
