import Metaobject.Proofs.Number.Decimal
import Metaobject.Proofs.Number.Grid

/-!
# The shortest decimal of a double

Of the decimals that are read as a finite double, the shortest ones nearest to it, and in a tie the
one with even digits (`IsShortest`). The search for digits gives such a decimal
(`isShortest_ofParts`), and there is no other one (`IsShortest.eq_ofParts`).
-/

set_option autoImplicit false
set_option relaxedAutoImplicit false

namespace Metaobject.Number.Shortest

open Binary64 (Parts decode isNegative)
open Numeral

/-! ### Decimals and the double they are read as -/

/-- Whether a decimal, with the sign of a double, is read as the double. -/
def Decimal.ReadsAs (decimal : Decimal) (number : Float) : Prop :=
  nearestDecimal (isNegative number) (digitsValue decimal.digits)
    (decimal.point - decimal.digits.length) = number

/-- Whether a decimal has the fewest digits of the decimals that are read as a double, and of those
is the nearest one. In a tie its digits are even. -/
structure IsShortest (number : Float) (decimal : Decimal) : Prop where
  proper : decimal.Proper
  reads : decimal.ReadsAs number
  shortest : ∀ other : Decimal, other.Proper → other.ReadsAs number →
    decimal.digits.length ≤ other.digits.length
  nearest : ∀ other : Decimal, other.Proper → other.ReadsAs number →
    other.digits.length = decimal.digits.length →
    |decimal.value - (decode number).magnitude| ≤ |other.value - (decode number).magnitude|
  even_of_tie : ∀ other : Decimal, other.Proper → other.ReadsAs number →
    other.digits.length = decimal.digits.length → other ≠ decimal →
    |decimal.value - (decode number).magnitude| = |other.value - (decode number).magnitude| →
    Even (digitsValue decimal.digits)

theorem Decimal.Proper.readsAs_iff {decimal : Decimal} (hproper : decimal.Proper) {number : Float}
    (hfinite : number.isFinite = true) (hpositive : 0 < (decode number).significand) :
    decimal.ReadsAs number ↔ (decode number).Covers decimal.value :=
  nearestDecimal_eq_iff hfinite hpositive hproper.digitsValue_pos _

/-- If a decimal is read as a double, then so is a place on the grid of as many digits: the decimal
itself, or one between it and the double. -/
theorem Decimal.Proper.exists_fits {decimal : Decimal} (hproper : decimal.Proper) {parts : Parts}
    (hcovers : parts.Covers decimal.value) {point : Int}
    (hpoint : 10 ^ (point - 1) ≤ parts.magnitude) :
    ∃ place, Fits parts (point - decimal.digits.length) place ∧
      (place * 10 ^ (point - decimal.digits.length) = decimal.value ∨
        decimal.value < place * 10 ^ (point - decimal.digits.length) ∧
          place * 10 ^ (point - decimal.digits.length) ≤ parts.magnitude) := by
  rcases le_or_gt point decimal.point with hle | hless
  · obtain ⟨shift, hshift⟩ := Int.le.dest hle
    have hplace : (digitsValue decimal.digits * 10 ^ shift : Nat) *
        (10 : ℚ) ^ (point - decimal.digits.length) = decimal.value := by
      rw [value, ← hshift, add_sub_right_comm, zpow_add₀ (by norm_num), zpow_natCast]
      push_cast
      ring
    refine ⟨_, ⟨?_, hplace ▸ hcovers⟩, Or.inl hplace⟩
    exact Nat.mul_pos hproper.digitsValue_pos (Nat.pow_pos (by decide))
  · have hlength := hproper.length_pos
    have hplace : (10 ^ (decimal.digits.length - 1) : Nat) *
        (10 : ℚ) ^ (point - decimal.digits.length) = 10 ^ (point - 1) := by
      rw [Nat.cast_pow, ← zpow_natCast, Nat.cast_ofNat, ← zpow_add₀ (by norm_num)]
      congr 1
      omega
    have hbelow : decimal.value < 10 ^ (point - 1) :=
      hproper.value_lt.trans_le (zpow_le_zpow_right₀ (by norm_num) (by omega))
    exact ⟨_, ⟨by positivity, hplace ▸ hcovers.convex parts.covers_magnitude hbelow.le hpoint⟩,
      Or.inr ⟨hplace ▸ hbelow, hplace ▸ hpoint⟩⟩

/-! ### Zeros at the end -/

theorem eq_append_replicate (digits : List Char) :
    ∃ count, digits = withoutTrailingZeros digits ++ List.replicate count '0' := by
  refine ⟨(digits.reverse.takeWhile (· = '0')).length, ?_⟩
  have hzeros : digits.reverse.takeWhile (· = '0') =
      List.replicate (digits.reverse.takeWhile (· = '0')).length '0' :=
    List.eq_replicate_iff.mpr ⟨rfl, fun digit hdigit ↦ by
      simpa using List.mem_takeWhile_imp hdigit⟩
  rw [withoutTrailingZeros, ← List.reverse_replicate, ← hzeros, ← List.reverse_append,
    List.takeWhile_append_dropWhile, List.reverse_reverse]

theorem last_withoutTrailingZeros {digits : List Char}
    (hsome : withoutTrailingZeros digits ≠ []) :
    ∃ rest digit, withoutTrailingZeros digits = rest ++ [digit] ∧ digit ≠ '0' :=
  ⟨_, _, (List.dropLast_append_getLast hsome).symm, fun hzero ↦
    List.rdropWhile_last_not (fun digit : Char ↦ decide (digit = '0')) digits hsome
      (decide_eq_true hzero)⟩

/-- The digits of a number, without the zeros at their end, are those of a proper decimal. -/
theorem proper_of_toDigits {coefficient : Nat} (hcoefficient : 0 < coefficient) {exponent : Int}
    {decimal : Decimal} (hdecimal : decimal = ⟨withoutTrailingZeros (Nat.toDigits 10 coefficient),
      exponent + (Nat.toDigits 10 coefficient).length⟩) :
    decimal.Proper ∧ decimal.value = coefficient * 10 ^ exponent ∧
      digitsValue decimal.digits ≤ coefficient := by
  obtain ⟨count, hwritten⟩ : ∃ count, Nat.toDigits 10 coefficient =
      decimal.digits ++ List.replicate count '0' := hdecimal ▸ eq_append_replicate _
  have hlength : (Nat.toDigits 10 coefficient).length = decimal.digits.length + count := by
    rw [hwritten, List.length_append, List.length_replicate]
  have hvalue : digitsValue decimal.digits * 10 ^ count = coefficient := by
    have htotal := digitsValue_toDigits coefficient
    rwa [hwritten, digitsValue_append, digitsValue_replicate_zero, List.length_replicate,
      add_zero] at htotal
  have hdigits : ∀ digit ∈ decimal.digits, digit.isDigit = true := fun digit hdigit ↦
    Nat.isDigit_of_mem_toDigits (by decide) (by decide)
      (hwritten ▸ List.mem_append_left _ hdigit : digit ∈ Nat.toDigits 10 coefficient)
  have hsome : decimal.digits ≠ [] := fun hnone ↦ by
    rw [hnone, show digitsValue [] = 0 from rfl, zero_mul] at hvalue
    exact hcoefficient.ne hvalue
  refine ⟨⟨hdigits, ?_, ?_⟩, ?_, ?_⟩
  · obtain ⟨digit, rest, hrest⟩ := List.exists_cons_of_ne_nil hsome
    refine ⟨digit, rest, hrest, fun hzero ↦ head?_toDigits hcoefficient ?_⟩
    rw [hwritten, hrest, hzero]
    rfl
  · rw [hdecimal] at hsome ⊢
    exact last_withoutTrailingZeros hsome
  · have hpoint : decimal.point = exponent + (Nat.toDigits 10 coefficient).length := by
      rw [hdecimal]
    rw [Decimal.value, ← hvalue, show decimal.point - decimal.digits.length = count + exponent by
      omega, zpow_add₀ (by norm_num), zpow_natCast]
    push_cast
    ring
  · exact hvalue ▸ Nat.le_mul_of_pos_right _ (Nat.pow_pos (by decide))

/-! ### What the search gives -/

/-- A place at most one step above a number below a power of ten is at most the number of places up
to that power. -/
theorem le_pow_of_le_add {number : ℚ} {point : Int} {place count : Nat}
    (hnumber : number < 10 ^ point)
    (hplace : place * 10 ^ (point - count) ≤ number + 10 ^ (point - count)) :
    place ≤ 10 ^ count := by
  have hpower : (10 : ℚ) ^ point = (10 ^ count : Nat) * 10 ^ (point - count) := by
    rw [Nat.cast_pow, ← zpow_natCast, Nat.cast_ofNat, ← zpow_add₀ (by norm_num),
      add_sub_cancel]
  have hless : place * (10 : ℚ) ^ (point - count) <
      (10 ^ count + 1 : Nat) * 10 ^ (point - count) := by
    rw [Nat.cast_add_one, add_mul, one_mul]
    linarith
  exact Nat.lt_succ_iff.mp (by exact_mod_cast lt_of_mul_lt_mul_right hless (by positivity))

/-- If the nearest place on a grid is a decimal then another decimal of as many digits that is read
as the double and equally near is another place on the grid. -/
theorem exists_place_of_tie {parts : Parts} {decimal other : Decimal} (hproper : decimal.Proper)
    {point : Int} (hpoint : 10 ^ (point - 1) ≤ parts.magnitude) {coefficient : Nat}
    (hvalue : decimal.value = coefficient * 10 ^ (point - decimal.digits.length))
    (hnearest : IsNearest parts (point - decimal.digits.length) coefficient)
    (hother : other.Proper) (hcovers : parts.Covers other.value)
    (hlength : other.digits.length = decimal.digits.length) (hdiffer : other ≠ decimal)
    (hsame : |decimal.value - parts.magnitude| = |other.value - parts.magnitude|) :
    ∃ place : Nat, other.value = place * 10 ^ (point - decimal.digits.length) ∧
      Even coefficient ∧ ¬Even place ∧
      place * 10 ^ (point - decimal.digits.length) ≤
        parts.magnitude + 10 ^ (point - decimal.digits.length) := by
  obtain ⟨place, hfits, hplace⟩ := hother.exists_fits hcovers hpoint
  rw [hlength] at hfits hplace
  rw [hvalue] at hsame
  rcases hplace with hplace | ⟨hless, hbelow⟩
  · refine ⟨place, hplace.symm, hnearest.tie place hfits ?_ (hplace ▸ hsame)⟩
    rintro rfl
    exact hdiffer (hother.eq_of_value_eq hproper hlength (hplace.symm.trans hvalue.symm))
  · have hnear := hnearest.nearest place hfits
    rw [hsame, abs_of_nonpos (by linarith), abs_of_nonpos (by linarith)] at hnear
    linarith

section

variable {parts : Parts} (hparts : parts.IsFinite) (hpositive : 0 < parts.significand)

include hparts hpositive

/-- The decimal that the search gives is the nearest place on the first grid on which a place is
read as the double, and it has as many digits as that grid. -/
theorem ofParts_spec :
    ∃ coefficient : Nat, (ofParts parts).Proper ∧
      (ofParts parts).value = coefficient *
        10 ^ (decimalPoint parts (Interval.of parts) - (ofParts parts).digits.length) ∧
      IsNearest parts
        (decimalPoint parts (Interval.of parts) - (ofParts parts).digits.length) coefficient ∧
      ∀ fewer : Nat, 0 < fewer → fewer < (ofParts parts).digits.length →
        ∀ place, ¬Fits parts (decimalPoint parts (Interval.of parts) - fewer) place := by
  obtain ⟨hleast, hmost⟩ := between_decimalPoint hparts hpositive
  obtain ⟨count, coefficient, hcount, hsearch, hnearest, hfewer⟩ :=
    search_spec hparts hpositive hleast
  obtain ⟨hproper, hvalue, hdigits⟩ := proper_of_toDigits hnearest.fits.1
    (show ofParts parts = _ by rw [ofParts, hsearch])
  have hlength : (ofParts parts).digits.length = count := by
    refine le_antisymm (not_lt.mp fun hlonger ↦ ?_) (not_lt.mp fun hshorter ↦ ?_)
    · have hsmall := le_pow_of_le_add hmost hnearest.le
      have hlarge : 10 ^ count ≤ 10 ^ ((ofParts parts).digits.length - 1) :=
        Nat.pow_le_pow_right (by decide) (by omega)
      have hpower : digitsValue (ofParts parts).digits = 10 ^ count :=
        le_antisymm (hdigits.trans hsmall) (hlarge.trans hproper.pow_le)
      exact hproper.not_dvd (hpower ▸ dvd_pow_self 10 hcount.ne')
    · obtain ⟨place, hplace, -⟩ := hproper.exists_fits (hvalue ▸ hnearest.fits.2) hleast
      exact hfewer _ hproper.length_pos hshorter place hplace
  exact ⟨coefficient, hproper, hlength ▸ hvalue, hlength ▸ hnearest, hlength ▸ hfewer⟩

end

/-- No double lies in the middle between nine and ten steps of a grid on which nine is read as the
double. -/
theorem magnitude_ne_of_covers_nine {parts : Parts} (hparts : parts.IsFinite) {exponent : Int}
    (hcovers : parts.Covers (9 * 10 ^ exponent)) :
    parts.magnitude ≠ 19 / 2 * 10 ^ exponent := by
  intro hmiddle
  have hunit : (0 : ℚ) < 2 ^ parts.exponent := by positivity
  have hlower := hcovers.lower_le
  have hmargin := mul_le_mul_of_nonneg_right parts.margin_le hunit.le
  rw [sub_mul, ← Parts.magnitude, hmiddle] at hlower
  -- The double is at most nine times the least double, which is no multiple of a power of ten.
  have hstep : (10 : ℚ) ^ exponent ≤ 2 ^ parts.exponent := by linarith
  rw [Parts.magnitude] at hmiddle
  have hsmall : parts.significand < 10 := by
    have hless : (parts.significand : ℚ) < 10 := by
      refine lt_of_mul_lt_mul_right ?_ hunit.le
      linarith
    exact_mod_cast hless
  have hexponent : parts.exponent = Binary64.minExponent := by
    refine le_antisymm (not_lt.mp fun hlarger ↦ ?_) hparts.least
    have hlarge := hparts.normal hlarger
    omega
  obtain ⟨least, hleast⟩ : ∃ least : Nat, parts.exponent = -(least + 1 : Nat) :=
    ⟨1073, hexponent⟩
  rw [hleast] at hmiddle hstep
  obtain ⟨power, rfl⟩ : ∃ power : Nat, exponent = -(power + 1 : Nat) := by
    refine ⟨(-exponent - 1).toNat, ?_⟩
    have hnegative : exponent < 0 := by
      refine not_le.mp fun hnonneg ↦ ?_
      have hone : (1 : ℚ) ≤ 10 ^ exponent := one_le_zpow₀ (by norm_num) hnonneg
      have hless : (2 : ℚ) ^ (-(least + 1 : Nat) : Int) < 1 :=
        zpow_lt_one_of_neg₀ one_lt_two (by omega)
      linarith
    omega
  have hwhole : 2 * parts.significand * 10 ^ (power + 1) = 19 * 2 ^ (least + 1) := by
    rw [zpow_neg, zpow_neg, zpow_natCast, zpow_natCast, ← div_eq_mul_inv, ← div_eq_mul_inv,
      div_eq_div_iff (by positivity) (by positivity)] at hmiddle
    have hdouble : (2 * parts.significand * 10 ^ (power + 1) : ℚ) = 19 * 2 ^ (least + 1) := by
      linarith
    exact_mod_cast hdouble
  have hfive : 5 ∣ 19 * 2 ^ (least + 1) := hwhole ▸
    ((by decide : 5 ∣ 10).trans (dvd_pow_self 10 power.succ_ne_zero)).mul_left _
  rcases (Nat.Prime.dvd_mul Nat.prime_five).mp hfive with hnineteen | htwo
  · exact absurd hnineteen (by decide)
  · exact absurd (Nat.prime_five.dvd_of_dvd_pow htwo) (by decide)

/-- A tie for ten places has nine places on the other side, so there is none. -/
theorem not_tie_ten {parts : Parts} (hparts : parts.IsFinite) {exponent : Int} {place : Nat}
    (hcovers : parts.Covers (place * 10 ^ exponent))
    (hless : parts.magnitude < 10 * 10 ^ exponent)
    (hle : 10 * 10 ^ exponent ≤ parts.magnitude + 10 ^ exponent) (hodd : ¬Even place) :
    |10 * 10 ^ exponent - parts.magnitude| ≠ |place * 10 ^ exponent - parts.magnitude| := by
  intro hsame
  have hpower : (0 : ℚ) < 10 ^ exponent := by positivity
  rcases abs_eq_abs.mp hsame with heq | hopposite
  · have hten : (10 : ℚ) = place := mul_right_cancel₀ hpower.ne' (sub_left_injective heq)
    obtain rfl : 10 = place := by exact_mod_cast hten
    exact hodd (by decide)
  · have hleast : (8 : ℚ) ≤ place := by
      refine le_of_mul_le_mul_right ?_ hpower
      linarith
    have hmost : (place : ℚ) < 10 := by
      refine lt_of_mul_lt_mul_right ?_ hpower.le
      linarith
    have hleast : 8 ≤ place := by exact_mod_cast hleast
    have hmost : place < 10 := by exact_mod_cast hmost
    obtain rfl : place = 9 := by
      rw [Nat.even_iff] at hodd
      omega
    rw [Nat.cast_ofNat] at hcovers hopposite
    exact magnitude_ne_of_covers_nine hparts hcovers (by linarith)

/-! ### The shortest decimal -/

section

variable {number : Float} (hfinite : number.isFinite = true) (hnonzero : (number == 0) = false)

include hfinite hnonzero

/-- The search gives the shortest decimal of a double. -/
theorem isShortest_ofParts : IsShortest number (ofParts (decode number)) := by
  have hparts := Binary64.isFinite_decode hfinite
  have hpositive := Binary64.significand_pos hnonzero
  obtain ⟨hleast, hmost⟩ := between_decimalPoint hparts hpositive
  obtain ⟨coefficient, hproper, hvalue, hnearest, hfewer⟩ := ofParts_spec hparts hpositive
  generalize decimalPoint (decode number) (Interval.of (decode number)) = point at *
  refine ⟨hproper, (hproper.readsAs_iff hfinite hpositive).mpr (hvalue ▸ hnearest.fits.2),
    fun other hother hreads ↦ ?_, fun other hother hreads hlength ↦ ?_,
    fun other hother hreads hlength hdiffer hsame ↦ ?_⟩ <;>
    rw [hother.readsAs_iff hfinite hpositive] at hreads
  · refine not_lt.mp fun hshorter ↦ ?_
    obtain ⟨place, hplace, -⟩ := hother.exists_fits hreads hleast
    exact hfewer _ hother.length_pos hshorter place hplace
  · obtain ⟨place, hfits, hplace⟩ := hother.exists_fits hreads hleast
    rw [hlength] at hfits hplace
    have hnear := hnearest.nearest place hfits
    rw [← hvalue] at hnear
    rcases hplace with hplace | ⟨hless, hbelow⟩
    · exact hplace ▸ hnear
    · refine hnear.trans ?_
      rw [abs_of_nonpos (by linarith), abs_of_nonpos (by linarith)]
      linarith
  · obtain ⟨place, hplace, heven, hodd, hle⟩ :=
      exists_place_of_tie hproper hleast hvalue hnearest hother hreads hlength hdiffer hsame
    rcases hproper.digitsValue_of_grid (le_pow_of_le_add hmost hnearest.le) hvalue with
      hdigits | ⟨rfl, hone⟩
    · exact hdigits ▸ heven
    · have hlength : (ofParts (decode number)).digits.length = 1 := by
        refine le_antisymm (not_lt.mp fun hlonger ↦ ?_) hproper.length_pos
        exact (Nat.one_lt_pow (by omega) (by decide)).not_ge (hone ▸ hproper.pow_le)
      have hpower : (10 : ℚ) ^ point = 10 * 10 ^ (point - 1) := by
        rw [mul_comm, ← zpow_add_one₀ (by norm_num), sub_add_cancel]
      rw [hvalue, hplace] at hsame
      rw [hplace] at hreads
      have hle := hnearest.le
      simp only [hlength, Nat.cast_ofNat, Nat.cast_one] at hsame hreads hle
      exact absurd hsame (not_tie_ten hparts hreads (hpower ▸ hmost) hle hodd)

/-- There is no other shortest decimal. -/
theorem IsShortest.eq_ofParts {decimal : Decimal} (hshortest : IsShortest number decimal) :
    decimal = ofParts (decode number) := by
  have hparts := Binary64.isFinite_decode hfinite
  have hpositive := Binary64.significand_pos hnonzero
  obtain ⟨hleast, hmost⟩ := between_decimalPoint hparts hpositive
  obtain ⟨coefficient, hproper, hvalue, hnearest, -⟩ := ofParts_spec hparts hpositive
  have hfound := isShortest_ofParts hfinite hnonzero
  have hlength : decimal.digits.length = (ofParts (decode number)).digits.length :=
    le_antisymm (hshortest.shortest _ hproper hfound.reads)
      (hfound.shortest _ hshortest.proper hshortest.reads)
  have hsame := le_antisymm (hfound.nearest _ hshortest.proper hshortest.reads hlength)
    (hshortest.nearest _ hproper hfound.reads hlength.symm)
  by_contra hdiffer
  have heven := hshortest.even_of_tie _ hproper hfound.reads hlength.symm (Ne.symm hdiffer)
    hsame.symm
  obtain ⟨place, hplace, -, hodd, hle⟩ :=
    exists_place_of_tie hproper hleast hvalue hnearest hshortest.proper
      ((hshortest.proper.readsAs_iff hfinite hpositive).mp hshortest.reads) hlength hdiffer hsame
  rw [← hlength] at hplace hle
  rcases hshortest.proper.digitsValue_of_grid (le_pow_of_le_add hmost hle) hplace with
    hdigits | ⟨rfl, -⟩
  · exact hodd (hdigits ▸ heven)
  · exact hodd (by decide)

end

end Metaobject.Number.Shortest
