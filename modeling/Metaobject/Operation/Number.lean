import Metaobject.Number.Power
import Metaobject.Number.Rounding
import Metaobject.Capability
import Metaobject.Value.Equality

/-!
# Operations on numbers

Absolute value, power and rounding. Numbers have them natively; instances of user classes have them
by the capabilities `__abs__`, `__pow__` and `__round__`, and an exponent may have `__rpow__`. All
other operands are type errors.
-/

set_option autoImplicit false
set_option relaxedAutoImplicit false

namespace Metaobject

/-- Whether a value is a number. -/
def Value.isNumber (value : Value) : Bool := value.float?.isSome

namespace Operation

/-! ### Absolute value -/

/-- The absolute value of a number. -/
def nativeAbsolute? : Value → Option Value
  | .float number => some (.float number.abs)
  | value => value.integer?.map fun integer => .ofInt integer.natAbs

/-- The absolute value. -/
def absolute (value : Value) : Program Value :=
  match nativeAbsolute? value with
  | some result => .done result
  | none => Capability.invoke value "__abs__" [] fun heap => .noAbsolute (heap.typeName value)

/-! ### Power -/

/-- The power of two doubles. -/
def powerOfDoubles (base exponent : Float) : Program Value :=
  .ofExcept ((Number.Power.double base exponent).map .float)

/-- The power of two integers. A negative exponent gives a double. -/
def powerOfIntegers (base exponent : Int) : Program Value :=
  if exponent < 0 then
    powerOfDoubles (Number.Binary64.ofInt base) (Number.Binary64.ofInt exponent)
  else if Number.Power.isSmallBase base then
    .done (.ofInt (Number.Power.smallPower base exponent.toNat))
  else if Number.Power.exponentLimit ≤ exponent.toNat then .raise .powerTooLarge
  else do
    Program.effect (.permitBits (Number.Power.sizeBound base exponent.toNat))
    return .ofInt (Number.Power.integer base exponent.toNat)

/-- The power of two numbers, if both operands are numbers. -/
def nativePower? (base exponent : Value) : Option (Program Value) :=
  match base.integer?, exponent.integer? with
  | some first, some second => some (powerOfIntegers first second)
  | _, _ => match base.float?, exponent.float? with
    | some first, some second => some (powerOfDoubles first second)
    | _, _ => none

/-- The power of two numbers modulo a third, if all operands are numbers. -/
def nativeModularPower? (base exponent modulus : Value) : Option (Program Value) :=
  match base.integer?, exponent.integer?, modulus.integer? with
  | some first, some second, some third =>
    some (.ofExcept ((Number.Power.modular first second third).map .ofInt))
  | _, _, _ =>
    if base.isNumber && exponent.isNumber && modulus.isNumber then
      some (.raise (.typeError
        "pow() 3rd argument not allowed unless all arguments are integers"))
    else none

/-- The power by the capabilities of the operands. The exponent is only asked when there is no
modulus. -/
def userPower (base exponent : Value) (modulus : Option Value) : Program Value := do
  match ← Capability.invoke? base "__pow__" (exponent :: modulus.toList) none with
  | some result => return result
  | none =>
    let reflected ← match modulus with
      | none => Capability.invoke? exponent "__rpow__" [base] none
      | some _ => pure none
    match reflected with
    | some result => return result
    | none =>
      let heap ← Program.heap
      .raise (.noPower ((base :: exponent :: modulus.toList).map heap.typeName))

/-- The power, modulo a third operand if it is given. -/
def power (base exponent : Value) (modulus : Option Value) : Program Value :=
  let native := match modulus with
    | none => nativePower? base exponent
    | some modulus => nativeModularPower? base exponent modulus
  native.getD (userPower base exponent modulus)

/-! ### Rounding -/

/-- The decimal places that an argument asks for. Long integers count as the greatest or least
word. -/
def places (heap : Heap) : Value → Except Exception (Option Int)
  | .null => .ok none
  | .long value => .ok (some (if value < 0 then -0x8000000000000000 else 0x7fffffffffffffff))
  | value => match value.integer? with
    | some integer => .ok (some integer)
    | none => .error (.notInteger (heap.typeName value))

/-- A number rounded to decimal places, or to an integer without them. -/
def nativeRound? (number : Value) (places : Option Int) : Option (Except Failure Value) :=
  match number, places with
  | .float number, none => some ((Number.Rounding.toInteger number).map .ofInt)
  | .float number, some places => some ((Number.Rounding.double number places).map .float)
  | number, places =>
    number.integer?.map fun integer => .ok (.ofInt (Number.Rounding.integer integer places))

/-- Rounding to decimal places; `null` places round to an integer. -/
def round (number digits : Value) : Program Value := do
  if number.isNumber then
    let heap ← Program.heap
    let places ← .ofExcept (places heap digits)
    match nativeRound? number places with
    | some result => .ofFailure result
    | none => .raise (.noRounding (heap.typeName number))
  else
    let arguments := if digits.isNull then [] else [digits]
    Capability.invoke number "__round__" arguments fun heap => .noRounding (heap.typeName number)

end Operation

end Metaobject
