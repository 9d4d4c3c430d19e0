import Converge.Text.Digits

/-!
# Binary floating-point numbers

The 64-bit binary numbers of IEEE 754, held as their bit pattern and computed with exact integer
arithmetic: a value is `± m · 2 ^ q`, and a quotient of natural numbers is rounded to the nearest
such value, a tie to the even significand.

## Main definitions

* `Binary64`: a number as its bit pattern.
* `Binary64.ofRatio`: the number nearest to a quotient.
* `Binary64.decimal`: the fewest decimal digits that read back as the same number.
* `Binary64.positional`: the digits written out around a decimal point.
* `Binary64.compact`: the digits written with an exponent when the number is large or small.
-/

namespace Converge

/-- A 64-bit binary floating-point number: sign, eleven exponent bits, 52 fraction bits. -/
structure Binary64 where
  bits : UInt64
  deriving DecidableEq

namespace Binary64

/-! ### Parts of a number -/

/-- The bit of the sign, the highest of the pattern. -/
def signBit : Nat := 0x8000000000000000

/-- The unit of the exponent bits, which lie above 52 bits of the significand. It is also the
highest bit of the significand of a normal number, which is not part of the pattern. -/
def exponentUnit : Nat := 0x10000000000000

/-- Whether the sign bit is set. -/
def isNegative (x : Binary64) : Bool := decide (signBit ≤ x.bits.toNat)

/-- The bit pattern without its sign. -/
def magnitude (x : Binary64) : Nat := x.bits.toNat % signBit

/-- The magnitude of infinity, above which the magnitudes stand for no number. -/
def infinity : Nat := 2047 * exponentUnit

/-- The number with the given sign and magnitude. -/
def ofParts (negative : Bool) (magnitude : Nat) : Binary64 :=
  ⟨UInt64.ofNat (magnitude % signBit + if negative then signBit else 0)⟩

/-- Whether a number is one of the two infinities. -/
def isInfinite (x : Binary64) : Bool := x.magnitude == infinity

/-- Whether a number is one of the two zeros. -/
def isZero (x : Binary64) : Bool := x.magnitude == 0

/-- The number with its sign changed. -/
def neg (x : Binary64) : Binary64 := ofParts (!x.isNegative) x.magnitude

/-- Whether two numbers are equal as numbers: the two zeros are. -/
def same (x y : Binary64) : Bool := x == y || (x.isZero && y.isZero)

theorem same_self (x : Binary64) : x.same x = true := by simp [same]

/-- The significand `m` of a finite number `± m · 2 ^ q`. -/
def significand (x : Binary64) : Nat :=
  if x.magnitude < exponentUnit then x.magnitude
  else x.magnitude % exponentUnit + exponentUnit

/-- The exponent `q + 1074` of a finite number `± m · 2 ^ q`, which is never negative. -/
def exponent (x : Binary64) : Nat := x.magnitude / exponentUnit - 1

/-! ### Rounding -/

/-- The natural number nearest to `a / b`, a tie to the even one. -/
def roundDiv (a b : Nat) : Nat :=
  let q := a / b
  let r := a % b
  if b < 2 * r ∨ (2 * r = b ∧ q % 2 = 1) then q + 1 else q

/-- The magnitude nearest to `a / b · 2 ^ (-1074)`; too large a quotient gives infinity. -/
def magnitudeOfQuotient (a b : Nat) : Nat :=
  let e := (a.log2 - b.log2) - 53
  let e := if 2 * exponentUnit ≤ a / (b <<< e) then e + 1 else e
  min infinity (e * exponentUnit + roundDiv a (b <<< e))

/-- The number nearest to `a / b`. -/
def ofRatio (negative : Bool) (a b : Nat) : Binary64 :=
  ofParts negative (if a = 0 then 0 else magnitudeOfQuotient (a <<< 1074) b)

/-- The number nearest to a natural number. -/
def ofNat (n : Nat) : Binary64 := ofRatio false n 1

/-- The product of the magnitudes of a number and of a natural number, rounded. -/
def mulNat (x : Binary64) (n : Nat) : Binary64 :=
  ofRatio x.isNegative (x.significand <<< x.exponent * n) (1 <<< 1074)

/-- The quotient of a number by a natural number, rounded. -/
def divNat (x : Binary64) (n : Nat) : Binary64 :=
  ofRatio x.isNegative (x.significand <<< x.exponent) (n <<< 1074)

/-- The value of the number `10 ^ e` after rounding, as a natural number. -/
def roundedPower (e : Nat) : Nat :=
  let p := ofNat (Nat.pow 10 e)
  p.significand <<< (p.exponent - 1074) >>> (1074 - p.exponent)

/-! ### Shortest decimal digits -/

/-- The larger end of the scale from which grids of powers of ten are tried. -/
def coarsest : Nat := 310

/-- A multiple of the grid `10 ^ (310 - i)` that rounds to the finite number `x ≠ 0`, as the count
of grid steps; of two the nearer, of two equally near the even one. -/
def gridPoint? (x : Binary64) (i : Nat) : Option Nat :=
  let m := x.significand
  -- The number and the ends of its rounding interval, in quarters of `2 ^ (q + 1074)`.
  let lowGap := if m = exponentUnit ∧ 0 < x.exponent then 1 else 2
  let grid := Nat.pow 10 (coarsest - i) <<< 1076
  let scale := Nat.pow 10 (i - coarsest) <<< x.exponent
  let value := 4 * m * scale
  let low := (4 * m - lowGap) * scale
  let high := (4 * m + 2) * scale
  let inside (g : Nat) : Bool :=
    if m % 2 = 0 then low ≤ g * grid && g * grid ≤ high else low < g * grid && g * grid < high
  let g := value / grid
  match inside g, inside (g + 1) with
  | false, false => none
  | true, false => some g
  | false, true => some (g + 1)
  | true, true =>
    let below := value - g * grid
    let above := (g + 1) * grid - value
    some (if below < above ∨ (below = above ∧ g % 2 = 0) then g else g + 1)

/-- The digits `d` and the exponent `k` of the shortest decimal `d · 10 ^ k` that rounds to the
finite number `x`: the point of the coarsest grid of a power of ten that meets the interval of
the reals that round to `x`. -/
def decimal (x : Binary64) : Nat × Int :=
  if x.isZero then (0, 0)
  else
    match (List.range 660).findSome? fun i => (x.gridPoint? i).map (·, i) with
    | some (d, i) => (d, (coarsest : Int) - i)
    | none => (0, 0)

/-! ### Writing -/

/-- The digits of `d · 10 ^ k` around a decimal point, with at least one digit on both sides. -/
def positionalDigits (d : Nat) (k : Int) : String :=
  if 0 ≤ k then toString (d * Nat.pow 10 k.toNat) ++ ".0"
  else
    let n := (-k).toNat
    let unit := Nat.pow 10 n
    toString (d / unit) ++ "." ++ Text.padded n (d % unit)

/-- The number without an exponent, however long that is. -/
def positional (x : Binary64) : String :=
  let (d, k) := x.decimal
  (if x.isNegative then "-" else "") ++ positionalDigits d k

/-- The number with its point among the digits when its decimal exponent is between -5 and 15,
and otherwise in the form `1.5e300`. -/
def compact (x : Binary64) : String :=
  let (d, k) := x.decimal
  let digits := toString d
  let sign := if x.isNegative then "-" else ""
  let point := k + digits.length
  if d = 0 then sign ++ "0.0"
  else if -5 < point ∧ point ≤ 16 then sign ++ positionalDigits d k
  else
    let fraction := digits.toList.drop 1
    let mantissa := String.ofList (digits.toList.take 1 ++
      if fraction.isEmpty then [] else '.' :: fraction)
    sign ++ mantissa ++ "e" ++ toString (point - 1)

end Binary64

end Converge
