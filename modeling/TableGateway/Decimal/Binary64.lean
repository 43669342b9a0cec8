/-!
# Finite binary64 numbers

A finite double as a sign, a significand and a binary exponent. Decimals are read by rounding to the
nearest double, a tie going to the even significand, in exact integer arithmetic.
-/

namespace TableGateway

/-- The number `± significand * 2 ^ exponent`. A zero keeps its sign. Numbers made by `nearest` have
the significand below `2 ^ 53` and the exponent at least `-1074`, and as small as that allows. -/
structure Binary64 where
  negative : Bool
  significand : Nat
  exponent : Int
  deriving DecidableEq, Repr

namespace Binary64

/-- The exponent of the numbers next to zero. -/
def leastExponent : Int := -1074

/-- The exponent of the largest finite numbers. -/
def greatestExponent : Int := 971

/-- The least significand of a number that is not next to zero. -/
def leastNormal : Nat := Nat.pow 2 52

def zero (negative : Bool) : Binary64 := ⟨negative, 0, leastExponent⟩

def isZero (x : Binary64) : Bool := x.significand == 0

/-- `num / den` rounded to a whole number, a half going to the even neighbour. -/
def roundDiv (num den : Nat) : Nat :=
  let quotient := num / den
  let twice := 2 * (num % den)
  if twice < den then quotient
  else if den < twice then quotient + 1
  else quotient + quotient % 2

/-- Numerator and denominator of `num / den / 2 ^ exponent`. -/
def descale (num den : Nat) (exponent : Int) : Nat × Nat :=
  if 0 ≤ exponent then (num, den * Nat.pow 2 exponent.toNat)
  else (num * Nat.pow 2 (-exponent).toNat, den)

/-- The double nearest to `num / den`, or nothing when that is beyond the finite range. -/
def nearest (negative : Bool) (num den : Nat) : Option Binary64 :=
  if num = 0 then some (zero negative)
  else
    let guess : Int := (num.log2 : Int) - den.log2 - 52
    let trial := descale num den guess
    let exponent := max leastExponent (if trial.1 < trial.2 * leastNormal then guess - 1 else guess)
    let scaled := descale num den exponent
    let rounded := roundDiv scaled.1 scaled.2
    let number : Binary64 :=
      if rounded = 2 * leastNormal then ⟨negative, leastNormal, exponent + 1⟩
      else ⟨negative, rounded, exponent⟩
    if number.exponent ≤ greatestExponent then some number else none

/-- The double nearest to `coefficient * 10 ^ exponent10`. Magnitudes far outside the range are
settled by their number of digits. -/
def ofDecimal (negative : Bool) (coefficient : Nat) (exponent10 : Int) : Option Binary64 :=
  let magnitude := exponent10 + (Nat.toDigits 10 coefficient).length
  if coefficient = 0 || magnitude < -400 then some (zero negative)
  else if 400 < magnitude then none
  else if 0 ≤ exponent10 then nearest negative (coefficient * Nat.pow 10 exponent10.toNat) 1
  else nearest negative coefficient (Nat.pow 10 (-exponent10).toNat)

/-- The value as an integer, when it is one. -/
def toInt? (x : Binary64) : Option Int :=
  let scaled := descale x.significand 1 (-x.exponent)
  if scaled.1 % scaled.2 = 0 then
    let magnitude : Int := scaled.1 / scaled.2
    some (if x.negative then -magnitude else magnitude)
  else none

/-!
## Shortest decimals

The fewest decimal digits that read back as the same double. A decimal reads back when it lies in
the interval of numbers that round to the double; for each number of digits only the two neighbours
of the double on that decimal grid have to be tried.
-/

/-- A positive decimal `coefficient * 10 ^ exponent10`. -/
structure Decimal where
  coefficient : Nat
  exponent10 : Int
  deriving DecidableEq, Repr

/-- Four times the significand, and four times the ends of the interval that rounds to the double.
Below a power of two the spacing halves, so the lower end is nearer there. -/
def quarters (x : Binary64) : Nat × Nat × Nat :=
  let four := 4 * x.significand
  let below := if x.significand = leastNormal ∧ leastExponent < x.exponent then 1 else 2
  (four - below, four, four + 2)

/-- Factor and divisor that turn quarters of the significand into multiples of `10 ^ exponent10`. -/
def gridScale (x : Binary64) (exponent10 : Int) : Nat × Nat :=
  let binary := descale 1 1 (2 - x.exponent)
  if 0 ≤ exponent10 then (binary.1, binary.2 * Nat.pow 10 exponent10.toNat)
  else (binary.1 * Nat.pow 10 (-exponent10).toNat, binary.2)

/-- The decimal on the grid `10 ^ exponent10` that reads back as the double and is nearest to it. -/
def onGrid? (x : Binary64) (exponent10 : Int) : Option Decimal :=
  let (low, middle, high) := x.quarters
  let (factor, divisor) := x.gridScale exponent10
  let closed := x.significand % 2 == 0
  let readsBack (c : Nat) : Bool :=
    if closed then low * factor ≤ c * divisor && c * divisor ≤ high * factor
    else low * factor < c * divisor && c * divisor < high * factor
  let floor := middle * factor / divisor
  let rest := middle * factor % divisor
  match readsBack floor, readsBack (floor + 1) with
  | true, true =>
      let up := divisor < 2 * rest || (divisor == 2 * rest && floor % 2 == 1)
      some ⟨if up then floor + 1 else floor, exponent10⟩
  | true, false => some ⟨floor, exponent10⟩
  | false, true => some ⟨floor + 1, exponent10⟩
  | false, false => none

/-- The power of ten of the leading digit. -/
def leadingPower (x : Binary64) : Int :=
  let (num, den) := descale x.significand 1 (-x.exponent)
  if den ≤ num then ((Nat.toDigits 10 (num / den)).length : Int) - 1
  else -((Nat.toDigits 10 (den / num)).length : Int)

/-- Moves trailing zeros of the coefficient into the exponent. -/
def dropZeros : Nat → Decimal → Decimal
  | 0, d => d
  | fuel + 1, d =>
      if d.coefficient ≠ 0 ∧ d.coefficient % 10 = 0 then
        dropZeros fuel ⟨d.coefficient / 10, d.exponent10 + 1⟩
      else d

/-- The shortest decimal of a double that is not zero. Seventeen digits always suffice. -/
def shortest (x : Binary64) : Decimal :=
  let power := x.leadingPower
  let found := (List.range 17).findSome? fun (more : Nat) => x.onGrid? (power - more)
  dropZeros 20 (found.getD ⟨0, 0⟩)

end Binary64

end TableGateway
