import Converge.Text.Blank
import Converge.Text.Digits

/-!
# Durations

Durations are whole seconds. They are written as a number with an optional unit: seconds, minutes
or hours.

## Main definitions

* `Seconds`: a duration.
* `Seconds.parse?`: the duration that a text denotes.
-/

namespace Converge

/-- A duration in seconds, below `2 ^ 64`. -/
abbrev Seconds := UInt64

namespace Seconds

/-- The unit of a duration in seconds, by its letter. -/
def unit? : Char → Option Nat
  | 's' => some 1
  | 'm' => some 60
  | 'h' => some 3600
  | _ => none

/-- A text split into what stands before its unit and the seconds of the unit, which is one
second when no unit is given. -/
def splitUnit (cs : List Char) : List Char × Nat :=
  match cs.getLast?.bind unit? with
  | some seconds => (cs.dropLast, seconds)
  | none => (cs, 1)

/-- The number below `2 ^ 64` that digits denote, with an optional plus sign before them. -/
def number? (cs : List Char) : Option Nat :=
  let digits := match cs with
    | '+' :: digits => digits
    | digits => digits
  if digits.isEmpty || !digits.all Char.isDigit then none
  else
    let n := Text.natOfDigits digits
    if n < UInt64.size then some n else none

/-- The duration that a text denotes. Blanks may surround it and precede its unit. -/
def parse? (text : String) : Option Seconds := do
  let (digits, unit) := splitUnit (Text.trim text.toList)
  let n ← number? (Text.trim digits)
  if n * unit < UInt64.size then some (UInt64.ofNat (n * unit)) else none

end Seconds

end Converge
