import Metaobject.Exception.Wording
import Metaobject.Number.Binary64
import Metaobject.Number.Numeral

/-!
# Rounding to decimal places

Rounding of integers and doubles to a number of decimal places, which may be negative; a tie goes to
the even neighbour. An integer stays an integer (`integer`). A double is written with the places,
from its exact value, and read back as the nearest double (`toPlaces`), or is rounded to a power of
ten by scaling (`toPowerOfTen`). A conversion that does not give a number is an internal error.
-/

set_option autoImplicit false
set_option relaxedAutoImplicit false

namespace Metaobject.Number.Rounding

/-! ### Integers -/

/-- The number of decimal digits of a natural number. -/
def decimalLength (value : Nat) : Nat := (Nat.toDigits 10 value).length

/-- The quotient of an integer by a positive number rounded to the nearest integer; a tie goes to
the even neighbour. -/
def nearestQuotient (value : Int) (divisor : Nat) : Int :=
  let quotient := value / (divisor : Int)
  let twice := 2 * (value % (divisor : Int))
  if (divisor : Int) < twice ∨ (twice = divisor ∧ quotient % 2 = 1) then quotient + 1 else quotient

/-- An integer rounded to a multiple of a power of ten for negative `places`. With more places than
digits, or places beyond thirty-two bits, nothing of it is left. -/
def integer (value : Int) (places : Option Int) : Int :=
  match places with
  | none => value
  | some places =>
    if 0 ≤ places then value
    else
      let dropped := places.natAbs
      if 0x100000000 ≤ dropped then 0
      else if decimalLength value.natAbs < dropped then 0
      else nearestQuotient value (Nat.pow 10 dropped) * Nat.pow 10 dropped

/-! ### Doubles -/

/-- The most decimal places for which rounding can change a double. -/
def maxPlaces : Int := 323

/-- The integer nearest to a double, if the double is finite; a tie goes to the even neighbour. -/
def nearestInt? (number : Float) : Option Int :=
  if number.isFinite then some (Binary64.nearestInt number) else none

/-- A double rounded to an integer. -/
def toInteger (number : Float) : Except Failure Int :=
  if number.isNaN then .error (.raised .notNumberToInteger)
  else if number.isInf then .error (.raised .infinityToInteger)
  else match nearestInt? number with
    | some integer => .ok integer
    | none => .error (.internal "finite float did not convert to an integer")

/-- The digits of a natural number, with zeros before them up to one more than `places`. -/
def padded (value places : Nat) : List Char :=
  let digits := Nat.toDigits 10 value
  List.replicate (places + 1 - digits.length) '0' ++ digits

/-- A natural number over `10 ^ places` written with that many decimal places. -/
def withPoint (value places : Nat) : List Char :=
  let digits := padded value places
  let whole := digits.take (digits.length - places)
  if places = 0 then whole else whole ++ '.' :: digits.drop (digits.length - places)

/-- A finite double written with a number of decimal places, rounded from its exact value; a tie
goes to the even last digit. -/
def fixed (number : Float) (places : Nat) : List Char :=
  let parts := Binary64.decode number
  let (upper, lower) := parts.ratio
  let written := withPoint (Binary64.roundHalfEven (upper * Nat.pow 10 places) lower) places
  if parts.negative then '-' :: written else written

/-- A finite double rounded to decimal places, exactly, and then to the nearest double. -/
def toPlaces (number : Float) (places : Nat) : Except Failure Float :=
  match Numeral.floatOf? (fixed number places) with
  | some rounded => .ok rounded
  | none => .error (.internal "formatted float failed to parse")

/-- The product of `factor` and a power of `base`, by repeated squaring in double precision. -/
def scaleBy (factor base : Float) (exponent : Nat) : Float :=
  let product := if exponent % 2 = 1 then factor * base else factor
  if exponent / 2 = 0 then product else scaleBy product (base * base) (exponent / 2)
termination_by exponent
decreasing_by omega

/-- A double rounded to a multiple of a power of ten, in double precision. -/
def toPowerOfTen (number : Float) (dropped : Nat) : Float :=
  let scale := scaleBy 1.0 10.0 dropped
  Binary64.nearestIntegral (number / scale) * scale

/-- A double rounded to decimal places. -/
def double (number : Float) (places : Int) : Except Failure Float :=
  if !number.isFinite || number == 0.0 || places > maxPlaces then .ok number
  else if places < -maxPlaces then
    .ok (if Binary64.isNegative number then -0.0 else 0.0)
  else do
    let rounded ← if 0 ≤ places then toPlaces number places.toNat
      else .ok (toPowerOfTen number places.natAbs)
    if rounded.isInf then .error (.raised (.overflow "rounded value too large to represent"))
    else .ok rounded

end Metaobject.Number.Rounding
