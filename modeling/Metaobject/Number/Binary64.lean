/-!
# Double precision numbers as exact rationals

A finite double is a signed integer significand times a power of two (`Parts`, `decode`). In the
other direction `ofRatio` gives the double nearest to a quotient of natural numbers: ties go to the
even significand and quotients past the largest finite double become infinite. Both directions are
exact integer arithmetic on the sixty-four bits. An integer longer than a word is cut to its leading
word before it is rounded (`leading`, `ofInt`).
-/

set_option autoImplicit false
set_option relaxedAutoImplicit false

namespace Metaobject.Number.Binary64

/-! ### Decoding -/

/-- A finite double: `significand * 2 ^ exponent`, negated when `negative`. -/
structure Parts where
  negative : Bool
  significand : Nat
  exponent : Int
  deriving DecidableEq

/-- The number of stored bits of a significand. -/
def storedBits : Nat := 52

/-- The exponent of the smallest doubles. -/
def minExponent : Int := -1074

/-- Whether the sign bit is set. -/
def isNegative (number : Float) : Bool := 0x8000000000000000 ≤ number.toBits.toNat

/-- The parts of a finite double. The exponent field is zero for subnormal numbers, which have no
hidden bit. -/
def decode (number : Float) : Parts :=
  let bits := number.toBits.toNat
  let field := bits / Nat.pow 2 storedBits % 0x800
  let stored := bits % Nat.pow 2 storedBits
  if field = 0 then ⟨isNegative number, stored, minExponent⟩
  else ⟨isNegative number, stored + Nat.pow 2 storedBits, minExponent + (field - 1 : Nat)⟩

/-- `significand * 2 ^ exponent` as a quotient of natural numbers. -/
def Parts.ratio (parts : Parts) : Nat × Nat :=
  if 0 ≤ parts.exponent then (parts.significand * Nat.pow 2 parts.exponent.toNat, 1)
  else (parts.significand, Nat.pow 2 (-parts.exponent).toNat)

/-! ### Rounding quotients -/

/-- The integer nearest to `numerator / denominator`; a tie goes to the even neighbour. -/
def roundHalfEven (numerator denominator : Nat) : Nat :=
  let quotient := numerator / denominator
  let twice := 2 * (numerator % denominator)
  if denominator < twice ∨ (twice = denominator ∧ quotient % 2 = 1) then quotient + 1 else quotient

/-- `numerator / (denominator * 2 ^ exponent)` as a quotient of natural numbers. -/
def scaled (numerator denominator : Nat) (exponent : Int) : Nat × Nat :=
  if 0 ≤ exponent then (numerator, denominator * Nat.pow 2 exponent.toNat)
  else (numerator * Nat.pow 2 (-exponent).toNat, denominator)

/-- The exponent at which `numerator / denominator` has a significand of fifty-three bits, or the
least exponent if that one is smaller. -/
def exponentFor (numerator denominator : Nat) : Int :=
  let estimate : Int := (numerator.log2 : Int) - denominator.log2 - storedBits
  let (upper, lower) := scaled numerator denominator estimate
  max minExponent (if upper / lower < Nat.pow 2 storedBits then estimate - 1 else estimate)

/-- The bits of positive infinity, above those of every finite positive double. -/
def infinityBits : Nat := 0x7ff * Nat.pow 2 storedBits

/-- The bits of the double nearest to `numerator / denominator`, for positive arguments. A
significand that rounds up to fifty-four bits carries into the exponent field. -/
def nearestBits (numerator denominator : Nat) : Nat :=
  if numerator = 0 then 0
  else
    let exponent := exponentFor numerator denominator
    let (upper, lower) := scaled numerator denominator exponent
    let field := (exponent - minExponent).toNat * Nat.pow 2 storedBits
    min infinityBits (field + roundHalfEven upper lower)

/-- The double nearest to `numerator / denominator`, with the given sign. -/
def ofRatio (negative : Bool) (numerator denominator : Nat) : Float :=
  let magnitude := nearestBits numerator denominator
  Float.ofBits (UInt64.ofNat (if negative then magnitude + 0x8000000000000000 else magnitude))

/-- Positive infinity. -/
def infinity : Float := Float.ofBits (UInt64.ofNat infinityBits)

/-! ### Doubles from integers

An integer is a sequence of words of `wordBits` bits, of which the top one may be partly filled. All
but the first `wordBits` bits are cut off before the integer is rounded, and what is cut off counts
only by leaving a trace: an odd last bit, which is no tie. In each word below the top one the trace
is looked for in as many low bits as the top word has (`topBits`). In the second word these are the
bits that are cut off, so an integer of at most two words goes to the nearest double. The higher
bits of the words further down leave no trace: an integer that lies above the middle of two doubles
by such bits alone is taken for the middle.
-/

/-- The number of bits of a word. -/
def wordBits : Nat := 64

/-- The number of bits of a number in its top word, from one to `wordBits`. -/
def topBits (magnitude : Nat) : Nat := magnitude.log2 % wordBits + 1

/-- The number of words of a number below its top word. -/
def lowerWords (magnitude : Nat) : Nat := magnitude.log2 / wordBits

/-- Whether one of the last `topBits` bits of a word below the top word is set. -/
def leavesTrace (magnitude : Nat) : Bool :=
  (List.range (lowerWords magnitude)).any fun index =>
    magnitude / Nat.pow 2 (wordBits * index) % Nat.pow 2 (topBits magnitude) ≠ 0

/-- A number with zeros for all but its first `wordBits` bits, of which the last is set if the
number leaves a trace. A number of at most one word is left as it is. -/
def leading (magnitude : Nat) : Nat :=
  let dropped := magnitude.log2 + 1 - wordBits
  let kept := magnitude / Nat.pow 2 dropped
  (if leavesTrace magnitude then kept ||| 1 else kept) * Nat.pow 2 dropped

/-- The double of an integer: the one nearest to its leading word, and infinite when the integer is
too large. -/
def ofInt (value : Int) : Float := ofRatio (decide (value < 0)) (leading value.natAbs) 1

/-! ### Integers from doubles -/

/-- The integer part of a finite double. -/
def truncate (number : Float) : Int :=
  let parts := decode number
  let (upper, lower) := parts.ratio
  let magnitude : Int := (upper / lower : Nat)
  if parts.negative then -magnitude else magnitude

/-- The integer nearest to a finite double; a tie goes to the even neighbour. -/
def nearestInt (number : Float) : Int :=
  let parts := decode number
  let (upper, lower) := parts.ratio
  let magnitude : Int := (roundHalfEven upper lower : Nat)
  if parts.negative then -magnitude else magnitude

/-- The integral double nearest to a finite double, with its sign; a tie goes to the even
neighbour. -/
def nearestIntegral (number : Float) : Float :=
  let parts := decode number
  let (upper, lower) := parts.ratio
  ofRatio parts.negative (roundHalfEven upper lower) 1

/-- Whether a finite double is an integer. -/
def isIntegral (number : Float) : Bool :=
  let (upper, lower) := (decode number).ratio
  upper % lower = 0

end Metaobject.Number.Binary64
