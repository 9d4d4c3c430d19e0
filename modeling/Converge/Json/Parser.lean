import Converge.Json.Basic
import Converge.Text.Digits
import Converge.Text.Reader

/-!
# Reading structured values

JSON text as a value. Whole numbers between `-2 ^ 63` and `2 ^ 64 - 1` are integers; every other
number, and minus zero, is a floating-point number. Of two members with one name the later counts.

A floating-point number is read in two roundings: its digits, as many as stay below `2 ^ 64`, are
rounded to the nearest number, and that is then scaled once by a power of ten.

## Main definitions

* `Json.parse?`: the value that a text denotes, with a limit on the nesting of arrays and objects.
-/

namespace Converge.Json

open Reader

/-- Space, tab, line feed and carriage return separate tokens. -/
def isGap (c : Char) : Bool := c == ' ' || c == '\t' || c == '\n' || c == '\r'

/-- Skip the space between tokens. -/
def gap : Reader Unit := skipWhile isGap

/-! ### Numbers -/

/-- Append digits to a significand as long as it stays below `2 ^ 64`; the significand and the
number of digits left out. -/
def accumulate (m : Nat) : List Char → Nat × Nat
  | [] => (m, 0)
  | c :: cs =>
    if m * 10 + Text.digitValue c < UInt64.size then accumulate (m * 10 + Text.digitValue c) cs
    else (m, cs.length + 1)

/-- Divide by `10 ^ n`, at most `10 ^ 308` at a time. -/
def shrink (x : Binary64) (n : Nat) : Binary64 :=
  if n ≤ 308 then x.divNat (Binary64.roundedPower n)
  else if x.isZero then x
  else shrink (x.divNat (Binary64.roundedPower 308)) (n - 308)
  termination_by n

/-- The number `m · 10 ^ e`, unless it is too large. -/
def scaled? (m : Nat) (e : Int) : Option Binary64 :=
  let x := Binary64.ofNat m
  if e < 0 then some (shrink x (-e).toNat)
  else if x.isZero then some x
  else if 308 < e then none
  else
    let y := x.mulNat (Binary64.roundedPower e.toNat)
    if y.isInfinite then none else some y

/-- The exponent after `e` or `E`. -/
def exponentPart : Reader Int := do
  let negative ← skip? '-'
  if !negative then
    let _ ← skip? '+'
  let digits ← takeWhile1 Char.isDigit
  let n : Nat := Text.natOfDigits digits
  return if negative then -n else n

/-- The largest natural number whose negative is an integer. -/
def negativeLimit : Nat := 0x8000000000000000

/-- A number: no digit follows a leading zero, and digits stand on both sides of a point. -/
def number : Reader Json := do
  let negative ← skip? '-'
  let whole ← takeWhile1 Char.isDigit
  if whole.head? = some '0' && whole.length ≠ 1 then fail
  let (m, dropped) := accumulate 0 whole
  let point ← skip? '.'
  let fraction ← if point then takeWhile1 Char.isDigit else pure []
  let (m, ignored) := accumulate m fraction
  let e : Int := dropped - (fraction.length - ignored : Nat)
  let mark ← peek?
  let scientific := mark = some 'e' || mark = some 'E'
  let e ← if scientific then do
      let _ ← next
      pure (e + (← exponentPart))
    else pure e
  if !point && !scientific && dropped = 0 && (!negative || (0 < m && m ≤ negativeLimit)) then
    return int (if negative then -m else m)
  match scaled? m e with
  | some x => return float (if negative then x.neg else x)
  | none => fail

/-! ### Texts -/

/-- A number of `n` hexadecimal digits. -/
def hexNumber : Nat → Nat → Reader Nat
  | 0, value => pure value
  | n + 1, value => do
    match Text.hexValue? (← next) with
    | some d => hexNumber n (value * 16 + d)
    | none => fail

/-- The character of an escape `\u`, which takes two of them for a code point above `FFFF`. -/
def unicodeEscape : Reader Char := do
  let high ← hexNumber 4 0
  if 0xD800 ≤ high && high < 0xDC00 then
    word ['\\', 'u']
    let low ← hexNumber 4 0
    if 0xDC00 ≤ low && low < 0xE000 then
      return Char.ofNat (0x10000 + (high - 0xD800) * 0x400 + (low - 0xDC00))
    else fail
  else if 0xDC00 ≤ high && high < 0xE000 then fail
  else return Char.ofNat high

/-- The character after a backslash. -/
def escape : Reader Char := do
  match ← next with
  | '"' => return '"'
  | '\\' => return '\\'
  | '/' => return '/'
  | 'b' => return '\x08'
  | 'f' => return '\x0c'
  | 'n' => return '\n'
  | 'r' => return '\r'
  | 't' => return '\t'
  | 'u' => unicodeEscape
  | _ => fail

/-- A text between quotation marks, without unescaped control characters. -/
def text : Reader String := do
  char '"'
  let cs ← many do
    let c ← next
    if c = '"' then return none
    else if c = '\\' then return some (← escape)
    else if c < ' ' then fail
    else return some c
  return String.ofList cs

/-! ### Values -/

/-- A value with at most `depth` levels of nested arrays and objects. -/
def value (depth : Nat) : Reader Json := do
  match ← peek? with
  | some 'n' => word ['n', 'u', 'l', 'l']; return null
  | some 't' => word ['t', 'r', 'u', 'e']; return bool true
  | some 'f' => word ['f', 'a', 'l', 's', 'e']; return bool false
  | some '"' => return str (← text)
  | some '[' =>
    match depth with
    | 0 => fail
    | depth + 1 =>
      char '['
      return arr (← listUntil ']' false gap (value depth))
  | some '{' =>
    match depth with
    | 0 => fail
    | depth + 1 =>
      char '{'
      return ofMembers (← listUntil '}' false gap do
        let name ← text
        gap
        char ':'
        gap
        return (name, ← value depth))
  | some _ => number
  | none => fail

/-- The value that a text denotes, with at most `depth` levels of nested arrays and objects. -/
def parse? (text : String) (depth : Nat) : Option Json :=
  run? (do gap; let v ← value depth; gap; return v) text

end Converge.Json
