import Mathlib.Algebra.Order.Ring.Abs
import Mathlib.Data.Nat.Digits.Lemmas
import Mathlib.Tactic.Linarith
import Mathlib.Tactic.LinearCombination
import Metaobject.Number.Rounding

/-!
# Integers rounded to multiples

What it means that an integer is rounded to a multiple of a unit, a tie going to the even quotient
(`RoundsTo`): no multiple is closer, and where another one is as close the quotient is even. There
is one such quotient (`RoundsTo.unique`), and an error of at most half a unit is how it is
recognised (`RoundsTo.of_error`). The quotient that is computed from the floor quotient and the
remainder is that one (`roundsTo_nearestQuotient`), and zero is it for an integer with fewer digits
than the unit has zeros (`roundsTo_zero`). So all ways of rounding an integer to decimal places
agree with one definition (`roundsTo_integer`).
-/

set_option autoImplicit false
set_option relaxedAutoImplicit false

namespace Metaobject.Number.Rounding

/-- Whether an integer is rounded to the multiple of a unit with a given quotient: no multiple is
closer, and if another multiple is as close, the quotient is even. -/
structure RoundsTo (unit value quotient : Int) : Prop where
  nearest : ∀ other : Int, |value - quotient * unit| ≤ |value - other * unit|
  even_of_tie : ∀ other : Int, other ≠ quotient →
    |value - other * unit| = |value - quotient * unit| → Even quotient

variable {unit value quotient other : Int}

/-! ### Errors -/

/-- Another multiple is off by at least a unit less the error. -/
theorem sub_le_error (hunit : 0 < unit) (hother : other ≠ quotient) :
    unit - |value - quotient * unit| ≤ |value - other * unit| := by
  have hsteps : 1 ≤ |quotient - other| := Int.one_le_abs (sub_ne_zero.mpr hother.symm)
  calc unit - |value - quotient * unit|
      ≤ |quotient - other| * unit - |value - quotient * unit| := by nlinarith
    _ = |(quotient - other) * unit| - |quotient * unit - value| := by
      rw [abs_mul, abs_of_pos hunit, abs_sub_comm value]
    _ ≤ |(quotient - other) * unit - (quotient * unit - value)| := abs_sub_abs_le_abs_sub _ _
    _ = |value - other * unit| := by congr 1; ring

/-- An error of at most half a unit is that of the nearest multiple, and only an error of exactly
half a unit is a tie. -/
theorem RoundsTo.of_error (hunit : 0 < unit) (herror : 2 * |value - quotient * unit| ≤ unit)
    (htie : 2 * |value - quotient * unit| = unit → Even quotient) :
    RoundsTo unit value quotient where
  nearest other := by
    by_cases hother : other = quotient
    · rw [hother]
    · have hapart : unit - |value - quotient * unit| ≤ |value - other * unit| :=
        sub_le_error hunit hother
      linarith
  even_of_tie other hother hequal := by
    have hapart : unit - |value - quotient * unit| ≤ |value - other * unit| :=
      sub_le_error hunit hother
    exact htie (by linarith)

/-- Two even quotients that were equally close would have a closer one between them. -/
theorem RoundsTo.unique (hunit : 0 < unit) (hquotient : RoundsTo unit value quotient)
    (hother : RoundsTo unit value other) : quotient = other := by
  by_contra hdiffer
  have hequal : |value - quotient * unit| = |value - other * unit| :=
    le_antisymm (hquotient.nearest other) (hother.nearest quotient)
  obtain ⟨first, rfl⟩ := hquotient.even_of_tie other (Ne.symm hdiffer) hequal.symm
  obtain ⟨second, rfl⟩ := hother.even_of_tie (first + first) hdiffer hequal
  rcases abs_eq_abs.mp hequal with hsame | hopposite
  · have hproduct : (first + first) * unit = (second + second) * unit := by linarith
    exact hdiffer (mul_right_cancel₀ hunit.ne' hproduct)
  · have hmiddle : value = (first + second) * unit := by linarith
    have hclosest := hquotient.nearest (first + second)
    rw [← hmiddle, sub_self, abs_zero, abs_nonpos_iff, hmiddle, ← sub_mul] at hclosest
    have hzero := (mul_eq_zero.mp hclosest).resolve_right hunit.ne'
    exact hdiffer (by omega)

/-! ### Quotients -/

/-- The floor quotient leaves the remainder, and the quotient above it the rest of a unit. -/
theorem roundsTo_nearestQuotient (value : Int) {divisor : Nat} (hdivisor : 0 < divisor) :
    RoundsTo divisor value (nearestQuotient value divisor) := by
  have hunit : (0 : Int) < divisor := Nat.cast_pos.mpr hdivisor
  have hleast := Int.emod_nonneg value hunit.ne'
  have hmost := Int.emod_lt_of_pos value hunit
  have hbelow : value - value / divisor * divisor = value % divisor := by
    rw [Int.emod_def, mul_comm]
  have habove : value - (value / divisor + 1) * divisor = -(divisor - value % divisor) := by
    linear_combination hbelow
  unfold nearestQuotient
  dsimp only
  split
  · rename_i hup
    have herror : |value - (value / divisor + 1) * divisor| = divisor - value % divisor := by
      rw [habove, abs_neg, abs_of_pos (sub_pos.mpr hmost)]
    refine .of_error hunit (by rw [herror]; omega) fun htie ↦ ?_
    rw [herror] at htie
    rw [Int.even_add_one, Int.not_even_iff]
    exact (hup.resolve_left (by omega)).2
  · rename_i hdown
    have herror : |value - value / divisor * divisor| = value % divisor := by
      rw [hbelow, abs_of_nonneg hleast]
    refine .of_error hunit (by rw [herror]; omega) fun htie ↦ ?_
    rw [herror] at htie
    rw [← Int.not_odd_iff_even, Int.odd_iff]
    exact fun hodd ↦ hdown (Or.inr ⟨htie, hodd⟩)

/-! ### Decimal places -/

/-- All places from the thirty-third bit on drop every digit. -/
theorem integer_of_le (value : Int) {places : Int} (hplaces : places ≤ -2 ^ 32) :
    integer value (some places) = 0 := by
  have hnegative : ¬0 ≤ places := by omega
  have hbeyond : 0x100000000 ≤ places.natAbs := by omega
  simp only [integer, if_neg hnegative, if_pos hbeyond]

theorem integer_of_nonneg (value : Int) {places : Int} (hplaces : 0 ≤ places) :
    integer value (some places) = value := by
  simp only [integer, if_pos hplaces]

theorem lt_pow_decimalLength (value : Nat) : value < 10 ^ decimalLength value :=
  (Nat.length_toDigits_le_iff (by decide) Nat.length_toDigits_pos).mp le_rfl

/-- Of an integer with fewer digits than are dropped nothing is left. -/
theorem roundsTo_zero {dropped : Nat} (hsmall : 10 * value.natAbs < 10 ^ dropped) :
    RoundsTo (10 ^ dropped : Nat) value 0 := by
  have hcast : 10 * |value| < ((10 ^ dropped : Nat) : Int) := by
    rw [Int.abs_eq_natAbs]
    exact_mod_cast hsmall
  have hmagnitude := abs_nonneg value
  refine .of_error (by linarith) ?_ fun _ ↦ Even.zero
  rw [zero_mul, sub_zero]
  linarith

/-- Rounding to decimal places before the point gives a multiple of the power of ten, the nearest
one, whichever way it is found. -/
theorem roundsTo_integer {places : Int} (hplaces : places < 0)
    (hlength : (Nat.digits 10 value.natAbs).length < 2 ^ 32) :
    ∃ quotient, integer value (some places) = quotient * 10 ^ (-places).toNat ∧
      RoundsTo (10 ^ (-places).toNat) value quotient := by
  have hdropped : (-places).toNat = places.natAbs := by omega
  have hunit : (10 : Int) ^ places.natAbs = (10 ^ places.natAbs : Nat) := by norm_cast
  have hshort {length : Nat} (hdigits : value.natAbs < 10 ^ length)
      (hlonger : length < places.natAbs) : 10 * value.natAbs < 10 ^ places.natAbs :=
    calc 10 * value.natAbs < 10 * 10 ^ length := Nat.mul_lt_mul_of_pos_left hdigits (by decide)
      _ = 10 ^ (length + 1) := (pow_succ' 10 length).symm
      _ ≤ 10 ^ places.natAbs := Nat.pow_le_pow_right (by decide) hlonger
  rw [hdropped, hunit]
  simp only [integer, if_neg (not_le.mpr hplaces)]
  split
  · rename_i hbeyond
    have hdigits := (Nat.digits_length_le_iff (b := 10) (by decide) value.natAbs).mp le_rfl
    exact ⟨0, (zero_mul _).symm, roundsTo_zero (hshort hdigits (hlength.trans_le hbeyond))⟩
  · split
    · rename_i hlonger
      exact ⟨0, (zero_mul _).symm, roundsTo_zero (hshort (lt_pow_decimalLength _) hlonger)⟩
    · exact ⟨_, rfl, roundsTo_nearestQuotient value (Nat.pow_pos (by decide))⟩

end Metaobject.Number.Rounding
