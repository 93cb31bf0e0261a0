import Mathlib
import Metaobject.Number.Numeral
import Metaobject.Number.Shortest

/-!
# Decimals

What digits stand for (`Numeral.digitsValue`) is below the power of ten of their length, and digits
of one length that stand for the same are the same (`Numeral.eq_of_digitsValue_eq`). A decimal
stands for a number (`Shortest.Decimal.value`). Without zeros at its ends it is proper, and then its
point tells between which powers of ten the number lies, and the number and the count of its digits
determine it (`Shortest.Decimal.Proper.eq_of_value_eq`).
-/

set_option autoImplicit false
set_option relaxedAutoImplicit false

namespace Metaobject.Number

namespace Numeral

theorem digitsValue_cons (digit : Char) (rest : List Char) :
    digitsValue (digit :: rest) =
      (digit.toNat - '0'.toNat) * 10 ^ rest.length + digitsValue rest := by
  show Nat.ofDigitChars 10 (digit :: rest) 0 = _
  rw [Nat.ofDigitChars_cons, Nat.ofDigitChars_eq_ofDigitChars_zero, mul_comm]
  simp only [mul_zero, zero_add]
  rfl

theorem digitsValue_append (first second : List Char) :
    digitsValue (first ++ second) =
      digitsValue first * 10 ^ second.length + digitsValue second := by
  show Nat.ofDigitChars 10 (first ++ second) 0 = _
  rw [Nat.ofDigitChars_append, Nat.ofDigitChars_eq_ofDigitChars_zero, mul_comm]
  rfl

theorem digitsValue_toDigits (value : Nat) : digitsValue (Nat.toDigits 10 value) = value :=
  Nat.ofDigitChars_toDigits (by decide) (by decide)

theorem digitsValue_replicate_zero (count : Nat) : digitsValue (List.replicate count '0') = 0 :=
  (Nat.ofDigitChars_replicate_zero).trans (mul_zero _)

theorem isDigit_of_mem_zeros (count : Nat) :
    ∀ digit ∈ List.replicate count '0', digit.isDigit = true := fun digit hdigit ↦ by
  rw [List.eq_of_mem_replicate hdigit]
  rfl

theorem digitsValue_lt {digits : List Char} (hdigits : ∀ digit ∈ digits, digit.isDigit = true) :
    digitsValue digits < 10 ^ digits.length := by
  induction digits with
  | nil => exact one_pos
  | cons digit rest ih =>
    obtain ⟨hdigit, hrest⟩ := List.forall_mem_cons.mp hdigits
    have hsmall : digit.toNat - '0'.toNat ≤ 9 := by
      have hbounds := Char.isDigit_iff_toNat.mp hdigit
      rw [show '9'.toNat = '0'.toNat + 9 from rfl] at hbounds
      omega
    calc digitsValue (digit :: rest)
        = (digit.toNat - '0'.toNat) * 10 ^ rest.length + digitsValue rest :=
          digitsValue_cons digit rest
      _ < 9 * 10 ^ rest.length + 10 ^ rest.length :=
          add_lt_add_of_le_of_lt (Nat.mul_le_mul_right _ hsmall) (ih hrest)
      _ = 10 ^ (digit :: rest).length := by rw [List.length_cons, pow_succ]; ring

/-- A positive number is written without a zero at the front. -/
theorem head?_toDigits {value : Nat} (hvalue : 0 < value) :
    (Nat.toDigits 10 value).head? ≠ some '0' := by
  intro hhead
  obtain ⟨rest, hwritten⟩ := List.head?_eq_some_iff.mp hhead
  -- The digits after the zero stand for the number and would be enough to write it.
  have hless : value < 10 ^ rest.length := by
    have htotal := digitsValue_toDigits value
    rw [hwritten, digitsValue_cons, Nat.sub_self, zero_mul, zero_add] at htotal
    exact htotal ▸ digitsValue_lt fun digit hdigit ↦
      Nat.isDigit_of_mem_toDigits (by decide) (by decide)
        (hwritten ▸ List.mem_cons_of_mem _ hdigit : digit ∈ Nat.toDigits 10 value)
  have hpositive : 0 < rest.length := Nat.pos_of_ne_zero fun hnone ↦ by
    rw [hnone, pow_zero] at hless
    omega
  have hshort := (Nat.length_toDigits_le_iff (by decide) hpositive).mpr hless
  rw [hwritten, List.length_cons] at hshort
  omega

theorem eq_of_digitsValue_eq {first second : List Char}
    (hfirst : ∀ digit ∈ first, digit.isDigit = true)
    (hsecond : ∀ digit ∈ second, digit.isDigit = true) (hlength : first.length = second.length)
    (hvalue : digitsValue first = digitsValue second) : first = second := by
  induction first generalizing second with
  | nil => exact (List.length_eq_zero_iff.mp hlength.symm).symm
  | cons digit rest ih =>
    obtain ⟨other, others, rfl⟩ := List.exists_cons_of_length_eq_add_one hlength.symm
    obtain ⟨hdigit, hrest⟩ := List.forall_mem_cons.mp hfirst
    obtain ⟨hother, hothers⟩ := List.forall_mem_cons.mp hsecond
    have hsame : rest.length = others.length := Nat.succ.inj hlength
    rw [digitsValue_cons, digitsValue_cons, hsame] at hvalue
    have hless := hsame ▸ digitsValue_lt hrest
    have hotherless := digitsValue_lt hothers
    have hlater : digitsValue rest = digitsValue others := by
      have hrests := congrArg (· % 10 ^ others.length) hvalue
      simpa only [Nat.mul_add_mod', Nat.mod_eq_of_lt hless, Nat.mod_eq_of_lt hotherless]
        using hrests
    rw [hlater, Nat.add_left_inj] at hvalue
    have hheads := Nat.eq_of_mul_eq_mul_right (by positivity) hvalue
    have hleast := (Char.isDigit_iff_toNat.mp hdigit).1
    have hotherleast := (Char.isDigit_iff_toNat.mp hother).1
    rw [ih hrest hothers hsame hlater, Char.toNat_inj.mp (show digit.toNat = other.toNat by omega)]

end Numeral

namespace Shortest

open Numeral

/-- The number that a decimal stands for. -/
def Decimal.value (decimal : Decimal) : ℚ :=
  digitsValue decimal.digits * 10 ^ (decimal.point - decimal.digits.length)

/-- Whether a decimal is made of digits, and has no zeros at its ends. -/
structure Decimal.Proper (decimal : Decimal) : Prop where
  digits : ∀ digit ∈ decimal.digits, digit.isDigit = true
  first : ∃ digit rest, decimal.digits = digit :: rest ∧ digit ≠ '0'
  last : ∃ rest digit, decimal.digits = rest ++ [digit] ∧ digit ≠ '0'

namespace Decimal

variable {decimal other : Decimal}

theorem Proper.length_pos (hproper : decimal.Proper) : 0 < decimal.digits.length := by
  obtain ⟨digit, rest, hdigits, -⟩ := hproper.first
  rw [hdigits]
  exact Nat.succ_pos _

theorem Proper.head?_ne (hproper : decimal.Proper) : decimal.digits.head? ≠ some '0' := by
  obtain ⟨digit, rest, hdigits, hnonzero⟩ := hproper.first
  rw [hdigits]
  exact fun hzero ↦ hnonzero (Option.some.inj hzero)

theorem Proper.getLast?_ne (hproper : decimal.Proper) : decimal.digits.getLast? ≠ some '0' := by
  obtain ⟨rest, digit, hdigits, hnonzero⟩ := hproper.last
  rw [hdigits, List.getLast?_concat]
  exact fun hzero ↦ hnonzero (Option.some.inj hzero)

theorem pos_of_ne_zero {digit : Char} (hdigit : digit.isDigit = true) (hnonzero : digit ≠ '0') :
    0 < digit.toNat - '0'.toNat := by
  have hleast := (Char.isDigit_iff_toNat.mp hdigit).1
  have hother : digit.toNat ≠ '0'.toNat := fun hsame ↦ hnonzero (Char.toNat_inj.mp hsame)
  omega

/-- The first digit is not zero. -/
theorem Proper.pow_le (hproper : decimal.Proper) :
    10 ^ (decimal.digits.length - 1) ≤ digitsValue decimal.digits := by
  obtain ⟨digit, rest, hdigits, hnonzero⟩ := hproper.first
  have hpositive := pos_of_ne_zero (hproper.digits digit (hdigits ▸ List.mem_cons_self)) hnonzero
  rw [hdigits, digitsValue_cons, List.length_cons, Nat.add_sub_cancel]
  exact (Nat.le_mul_of_pos_left _ hpositive).trans (Nat.le_add_right _ _)

theorem Proper.digitsValue_pos (hproper : decimal.Proper) : 0 < digitsValue decimal.digits :=
  lt_of_lt_of_le (by positivity) hproper.pow_le

/-- The last digit is not zero. -/
theorem Proper.not_dvd (hproper : decimal.Proper) : ¬10 ∣ digitsValue decimal.digits := by
  obtain ⟨rest, digit, hdigits, hnonzero⟩ := hproper.last
  have hdigit := hproper.digits digit
    (hdigits ▸ List.mem_append_right _ (List.mem_singleton_self _))
  have hpositive := pos_of_ne_zero hdigit hnonzero
  have hmost := (Char.isDigit_iff_toNat.mp hdigit).2
  rw [show '9'.toNat = '0'.toNat + 9 from rfl] at hmost
  rw [hdigits, digitsValue_append, List.length_singleton, digitsValue_cons]
  simp only [List.length_nil, pow_zero, mul_one, pow_one]
  rw [show digitsValue [] = 0 from rfl]
  omega

theorem Proper.pow_le_value (hproper : decimal.Proper) :
    (10 : ℚ) ^ (decimal.point - 1) ≤ decimal.value := by
  have hleast : (10 : ℚ) ^ (decimal.digits.length - 1) ≤ digitsValue decimal.digits := by
    exact_mod_cast hproper.pow_le
  have hlength := hproper.length_pos
  calc (10 : ℚ) ^ (decimal.point - 1)
      = 10 ^ (decimal.digits.length - 1) * 10 ^ (decimal.point - decimal.digits.length) := by
        rw [← zpow_natCast, ← zpow_add₀ (by norm_num)]
        congr 1
        omega
    _ ≤ decimal.value := mul_le_mul_of_nonneg_right hleast (by positivity)

theorem Proper.value_lt (hproper : decimal.Proper) : decimal.value < (10 : ℚ) ^ decimal.point := by
  have hmost : (digitsValue decimal.digits : ℚ) < 10 ^ decimal.digits.length := by
    exact_mod_cast digitsValue_lt hproper.digits
  calc decimal.value
      < 10 ^ decimal.digits.length * 10 ^ (decimal.point - decimal.digits.length) :=
        mul_lt_mul_of_pos_right hmost (by positivity)
    _ = 10 ^ decimal.point := by
        rw [← zpow_natCast, ← zpow_add₀ (by norm_num)]
        congr 1
        omega

/-- A number lies between two consecutive powers of ten only. -/
theorem eq_of_between_pow {number : ℚ} {first second : Int} (hfirst : 10 ^ (first - 1) ≤ number)
    (hbelow : number < 10 ^ first) (hsecond : 10 ^ (second - 1) ≤ number)
    (hless : number < 10 ^ second) : first = second := by
  wlog hle : first ≤ second generalizing first second
  · exact (this hsecond hless hfirst hbelow (by omega)).symm
  by_contra hdiffer
  have hpower : (10 : ℚ) ^ first ≤ 10 ^ (second - 1) :=
    zpow_le_zpow_right₀ (by norm_num) (by omega)
  linarith

/-- Two decimals with equally many digits that stand for the same number are the same. -/
theorem Proper.eq_of_value_eq (hproper : decimal.Proper) (hother : other.Proper)
    (hlength : decimal.digits.length = other.digits.length) (hvalue : decimal.value = other.value) :
    decimal = other := by
  have hpoint : decimal.point = other.point := eq_of_between_pow hproper.pow_le_value
    hproper.value_lt (hvalue ▸ hother.pow_le_value) (hvalue ▸ hother.value_lt)
  rw [value, value, hlength, hpoint] at hvalue
  have hdigits : digitsValue decimal.digits = digitsValue other.digits := by
    exact_mod_cast mul_right_cancel₀ (by positivity) hvalue
  obtain ⟨digits, point⟩ := decimal
  obtain ⟨others, otherPoint⟩ := other
  obtain rfl : digits = others :=
    eq_of_digitsValue_eq hproper.digits hother.digits hlength hdigits
  obtain rfl : point = otherPoint := hpoint
  rfl

/-- A decimal that is a place on a grid of its own precision has the digits of the place, unless the
place is the next power of ten. -/
theorem Proper.digitsValue_of_grid (hproper : decimal.Proper) {point : Int} {place : Nat}
    (hplace : place ≤ 10 ^ decimal.digits.length)
    (hvalue : decimal.value = place * 10 ^ (point - decimal.digits.length)) :
    digitsValue decimal.digits = place ∨ place = 10 ∧ digitsValue decimal.digits = 1 := by
  have hten : (10 : ℚ) ^ (point - decimal.digits.length) ≠ 0 := by positivity
  rcases le_total point decimal.point with hle | hle
  · obtain ⟨shift, hshift⟩ := Int.le.dest hle
    have hdigits : digitsValue decimal.digits * 10 ^ shift = place := by
      rw [value, ← hshift, add_sub_right_comm, zpow_add₀ (by norm_num), zpow_natCast,
        mul_comm ((10 : ℚ) ^ _), ← mul_assoc] at hvalue
      exact_mod_cast mul_right_cancel₀ hten hvalue
    rcases Nat.eq_zero_or_pos shift with rfl | hpositive
    · exact Or.inl ((mul_one _).symm.trans hdigits)
    · right
      obtain ⟨length, hlength⟩ := Nat.exists_eq_succ_of_ne_zero hproper.length_pos.ne'
      have hleast := hproper.pow_le
      rw [hlength, Nat.succ_sub_one] at hleast
      rw [hlength, ← hdigits, pow_succ] at hplace
      have hshifted : digitsValue decimal.digits * 10 ≤ digitsValue decimal.digits * 10 ^ shift :=
        Nat.mul_le_mul_left _ (Nat.le_self_pow hpositive.ne' 10)
      have hpower : digitsValue decimal.digits = 10 ^ length := by omega
      obtain rfl : length = 0 := by
        by_contra hlonger
        exact hproper.not_dvd (hpower ▸ dvd_pow_self 10 hlonger)
      rw [pow_zero] at hpower
      rw [hpower, one_mul] at hdigits hshifted hplace
      exact ⟨by omega, hpower⟩
  · obtain ⟨shift, hshift⟩ := Int.le.dest hle
    have hdigits : digitsValue decimal.digits = place * 10 ^ shift := by
      rw [value, ← hshift, add_sub_right_comm, zpow_add₀ (by norm_num), zpow_natCast,
        mul_comm ((10 : ℚ) ^ _), ← mul_assoc] at hvalue
      exact_mod_cast mul_right_cancel₀ (by positivity) hvalue
    rcases Nat.eq_zero_or_pos shift with rfl | hpositive
    · exact Or.inl (hdigits.trans (mul_one _))
    · refine absurd (hdigits ▸ ?_) hproper.not_dvd
      exact (dvd_pow_self 10 hpositive.ne').mul_left _

end Decimal

end Shortest

end Metaobject.Number
