/-!
# Reading text from the front

A reader takes characters from the front of a text and gives a value and what is left, or nothing
when the text does not begin as it expects. Readers look ahead one character and decide, so a
failure is final for the whole text; none of them goes back.

## Main definitions

* `Reader`: a state monad over the characters that are left.
* `Reader.many`: repeated reading, which ends because each round must consume something.
* `Reader.run?`: the value of a reader that consumes a whole text.
-/

namespace Converge

/-- A reader of a value from the front of a text. -/
abbrev Reader := StateT (List Char) Option

namespace Reader

variable {α β : Type}

/-- The reader that never succeeds. -/
def fail : Reader α := fun _ => none

/-- The next character, left in place. -/
def peek? : Reader (Option Char) := fun s => some (s.head?, s)

/-- What is left, left in place. -/
def rest : Reader (List Char) := fun s => some (s, s)

/-- The next character. -/
def next : Reader Char
  | [] => none
  | c :: s => some (c, s)

/-- The next character, which must satisfy `p`. -/
def satisfying (p : Char → Bool) : Reader Char
  | [] => none
  | c :: s => if p c then some (c, s) else none

/-- The character `c`. -/
def char (c : Char) : Reader Unit
  | [] => none
  | d :: s => if d = c then some ((), s) else none

/-- The characters of `word`, in order. -/
def word : List Char → Reader Unit
  | [] => pure ()
  | c :: cs => do char c; word cs

/-- The longest run of characters that satisfy `p`. -/
def takeWhile (p : Char → Bool) : Reader (List Char) := fun s => some (s.takeWhile p, s.dropWhile p)

/-- A run of at least one character satisfying `p`. -/
def takeWhile1 (p : Char → Bool) : Reader (List Char) := do
  let cs ← takeWhile p
  if cs.isEmpty then fail else pure cs

/-- Skip the longest run of characters that satisfy `p`. -/
def skipWhile (p : Char → Bool) : Reader Unit := fun s => some ((), s.dropWhile p)

/-- Skip the character `c` if it is next, and tell whether it was. -/
def skip? (c : Char) : Reader Bool
  | [] => some (false, [])
  | d :: s => if d = c then some (true, s) else some (false, d :: s)

/-- Whether the characters of `word` are next, left in place. -/
def ahead (word : List Char) : Reader Bool := fun s => some (word.isPrefixOf s, s)

/-- Skip the characters of `word` if they are next, and tell whether they were. -/
def skipWord? (word : List Char) : Reader Bool := fun s =>
  if word.isPrefixOf s then some (true, s.drop word.length) else some (false, s)

/-- Apply `round` until it answers `none`, collecting its values. Every round that gives a value
must consume a character. -/
def many (round : Reader (Option α)) (s : List Char) : Option (List α × List Char) :=
  match round s with
  | none => none
  | some (none, s') => some ([], s')
  | some (some a, s') =>
    if s'.length < s.length then (many round s').map fun (as, s'') => (a :: as, s'')
    else none
  termination_by s.length

/-- The elements read by `element` up to the character `close`, separated by commas. Between
tokens `gap` is skipped. A comma before `close` is accepted when `trailing` is set. -/
def listUntil (close : Char) (trailing : Bool) (gap : Reader Unit) (element : Reader α) :
    Reader (List α) := do
  gap
  if ← skip? close then return []
  let first ← element
  gap
  let others ← many do
    if ← skip? close then return none
    char ','
    gap
    if trailing then
      if ← skip? close then return none
    let a ← element
    gap
    return some a
  return first :: others

/-- The value of a reader that consumes the whole text. -/
def run? (reader : Reader α) (text : String) : Option α :=
  match reader text.toList with
  | some (a, []) => some a
  | _ => none

end Reader

end Converge
