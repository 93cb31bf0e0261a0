import Metaobject.Number.Binary64

/-!
# Shortest decimals

The decimal with the fewest significant digits that reads back as a given double, and of those with
equally many digits the one nearest to it. The reals that round to the double form an interval
(`Interval.of`), which holds its ends exactly when the significand is even. For one, two, …,
seventeen digits the two decimals next to the double on the grid of that precision are tested in
exact arithmetic (`onGrid?`); the first grid with a hit gives the digits (`digits`).
-/

set_option autoImplicit false
set_option relaxedAutoImplicit false

namespace Metaobject.Number.Shortest

open Metaobject.Number

/-! ### The rounding interval -/

/-- The positive reals that round to one double, as multiples of a common unit `1 / unit`: the
double itself, the two ends, and whether the ends belong to the interval. -/
structure Interval where
  lower : Nat
  value : Nat
  upper : Nat
  unit : Nat
  closed : Bool

/-- The rounding interval of a double with nonzero significand. Below a power of two the next double
is only half as far away as above it. -/
def Interval.of (parts : Binary64.Parts) : Interval :=
  let isPower :=
    parts.significand = Nat.pow 2 Binary64.storedBits ∧ Binary64.minExponent < parts.exponent
  let below := if isPower then 1 else 2
  let exponent := parts.exponent - 2
  let factor := if 0 ≤ exponent then Nat.pow 2 exponent.toNat else 1
  let unit := if 0 ≤ exponent then 1 else Nat.pow 2 (-exponent).toNat
  { lower := (4 * parts.significand - below) * factor
    value := 4 * parts.significand * factor
    upper := (4 * parts.significand + 2) * factor
    unit := unit
    closed := parts.significand % 2 = 0 }

/-- The interval with the unit refined so that multiples of `10 ^ exponent` are multiples of
`Interval.step`. -/
def Interval.refine (interval : Interval) (exponent : Int) : Interval :=
  let factor := if 0 ≤ exponent then 1 else Nat.pow 10 (-exponent).toNat
  { interval with
    lower := interval.lower * factor
    value := interval.value * factor
    upper := interval.upper * factor }

/-- The distance of two neighbours on the grid of the multiples of `10 ^ exponent`, in refined
units. -/
def Interval.step (interval : Interval) (exponent : Int) : Nat :=
  if 0 ≤ exponent then interval.unit * Nat.pow 10 exponent.toNat else interval.unit

/-- Whether a multiple of the refined unit lies in the interval. -/
def Interval.holds (interval : Interval) (point : Nat) : Bool :=
  if interval.closed then interval.lower ≤ point && point ≤ interval.upper
  else interval.lower < point && point < interval.upper

/-! ### Grids -/

/-- The grid point nearest to the double among those that read back as it: one of the two neighbours
of the double on the grid of the multiples of `10 ^ exponent`. A tie goes to the even one. -/
def onGrid? (interval : Interval) (exponent : Int) : Option Nat :=
  let refined := interval.refine exponent
  let step := interval.step exponent
  let below := refined.value / step
  let above := below + 1
  let lowFits := refined.holds (below * step) && below != 0
  let highFits := refined.holds (above * step)
  if lowFits && highFits then
    let toLow := refined.value - below * step
    let toHigh := above * step - refined.value
    if toLow < toHigh ∨ (toLow = toHigh ∧ below % 2 = 0) then some below else some above
  else if lowFits then some below
  else if highFits then some above
  else none

/-- Whether `10 ^ exponent` is at most the double. -/
def reaches (interval : Interval) (exponent : Int) : Bool :=
  interval.step exponent ≤ (interval.refine exponent).value

/-- The least `point` with the double below `10 ^ point`, sought upwards from an estimate that is
not too large. -/
def pointFrom : Nat → Interval → Int → Int
  | 0, _, estimate => estimate
  | attempts + 1, interval, estimate =>
    if reaches interval estimate then pointFrom attempts interval (estimate + 1) else estimate

/-- The decimal point of a double: the `point` with `10 ^ (point - 1) ≤ x < 10 ^ point`. -/
def decimalPoint (parts : Binary64.Parts) (interval : Interval) : Int :=
  let binary : Int := (parts.significand.log2 : Int) + parts.exponent
  pointFrom 4 interval (Int.fdiv (binary * 30103) 100000 - 1)

/-- The digit count and the digits of the first grid with a hit, from `count` digits on. -/
def search : Nat → Interval → Int → Nat → Nat × Int
  | 0, interval, point, count =>
    let exponent := point - count
    (((interval.refine exponent).value / interval.step exponent), exponent)
  | attempts + 1, interval, point, count =>
    match onGrid? interval (point - count) with
    | some found => (found, point - count)
    | none => search attempts interval point (count + 1)

/-- A decimal `0.d₁d₂…dₙ * 10 ^ point` given by its digit characters and its point. -/
structure Decimal where
  digits : List Char
  point : Int
  deriving DecidableEq

/-- The digit characters without the zeros at their end. -/
def withoutTrailingZeros (digits : List Char) : List Char :=
  (digits.reverse.dropWhile (· = '0')).reverse

/-- The shortest decimal of a double with nonzero significand. -/
def ofParts (parts : Binary64.Parts) : Decimal :=
  let interval := Interval.of parts
  let (coefficient, exponent) := search 17 interval (decimalPoint parts interval) 1
  let written := Nat.toDigits 10 coefficient
  ⟨withoutTrailingZeros written, exponent + written.length⟩

end Metaobject.Number.Shortest
