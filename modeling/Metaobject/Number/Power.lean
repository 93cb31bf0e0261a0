import Metaobject.Exception.Wording
import Metaobject.Number.Binary64

/-!
# Powers

Powers of integers and of doubles, and powers of integers modulo an integer. The power of integers
is exact (`integer`), and its size is known beforehand from the length of the base
(`sizeBound`). A modular power has the sign of the modulus (`modular`); for a negative exponent it
is a power of the inverse of the base, if there is one. The power of doubles refuses what has no
finite real value (`double`).
-/

set_option autoImplicit false
set_option relaxedAutoImplicit false

namespace Metaobject.Number.Power

/-! ### Integers -/

/-- The number of binary digits of a natural number; zero has none. -/
def bitLength (value : Nat) : Nat := if value = 0 then 0 else value.log2 + 1

/-- The power of an integer to a natural exponent. -/
def integer (base : Int) (exponent : Nat) : Int :=
  let magnitude : Int := Nat.pow base.natAbs exponent
  if base < 0 ∧ exponent % 2 = 1 then -magnitude else magnitude

/-- The greatest size that is told apart. -/
def greatestSize : Nat := 0xffffffffffffffff

/-- The estimated number of bits of a power, which is never too small. -/
def sizeBound (base : Int) (exponent : Nat) : Nat :=
  min (bitLength base.natAbs * exponent) greatestSize

/-- Exponents from here on are refused for bases of two or more digits. -/
def exponentLimit : Nat := 0x100000000

/-- Whether the powers of a base stay small for every exponent. -/
def isSmallBase (base : Int) : Bool := base == 0 || base == 1 || base == -1

/-- The power of a base whose powers stay small. -/
def smallPower (base : Int) (exponent : Nat) : Int :=
  if base = 0 then (if exponent = 0 then 1 else 0)
  else if base = 1 then 1
  else if exponent % 2 = 0 then 1 else -1

/-! ### Modular powers -/

/-- The power of a natural number modulo a positive one, by repeated squaring: what `modpow` of
`num-bigint` gives. -/
def powMod (base exponent modulus : Nat) : Nat :=
  if exponent = 0 then 1 % modulus
  else
    let root := powMod (base * base % modulus) (exponent / 2) modulus
    if exponent % 2 = 1 then base * root % modulus else root
termination_by exponent
decreasing_by omega

/-- The greatest common divisor of two numbers with the coefficient of the first in a combination
that gives it, and the coefficient of the second: what `extended_gcd` of `num-integer` gives. -/
def bezout (first second : Nat) : Nat × Int × Int :=
  if second = 0 then (first, 1, 0)
  else
    let (divisor, left, right) := bezout second (first % second)
    (divisor, right, left - (first / second : Nat) * right)
termination_by second
decreasing_by exact Nat.mod_lt _ (by omega)

/-- The inverse of an integer modulo a positive number, if there is one. -/
def inverse? (base : Int) (modulus : Nat) : Option Nat :=
  let (divisor, coefficient, _) := bezout (base % (modulus : Int)).toNat modulus
  if divisor = 1 then some (coefficient % (modulus : Int)).toNat else none

/-- A natural power reduced to the sign and range of the modulus. -/
def modularNatural (base : Int) (exponent : Nat) (modulus : Int) : Int :=
  let size := modulus.natAbs
  Int.fmod (powMod (base % (size : Int)).toNat exponent size : Nat) modulus

/-- The power of an integer modulo an integer. -/
def modular (base exponent modulus : Int) : Except Exception Int :=
  if modulus = 0 then .error (.valueError "pow() 3rd argument cannot be 0")
  else if 0 ≤ exponent then .ok (modularNatural base exponent.toNat modulus)
  else match inverse? base modulus.natAbs with
    | some inverse => .ok (modularNatural inverse (-exponent).toNat modulus)
    | none => .error (.valueError "base is not invertible for the given modulus")

/-! ### Doubles -/

/-- The power of doubles. -/
def double (base exponent : Float) : Except Exception Float :=
  if base == 0.0 && exponent < 0.0 then .error .zeroToNegativePower
  else if base < 0.0 && exponent.isFinite && !Binary64.isIntegral exponent then
    .error (.valueError "negative number cannot be raised to a fractional power")
  else
    let power := base.pow exponent
    if power.isInf && base.isFinite && exponent.isFinite then
      .error (.overflow "(34, 'Numerical result out of range')")
    else .ok power

end Metaobject.Number.Power
