import Metaobject.Number.Numeral
import Metaobject.Proofs.Number.Binary64

/-!
# Reading doubles

Which numbers are rounded to a finite double: those of its rounding interval, which reaches to the
middles between the double and the two next ones and has its ends if the significand is even
(`Binary64.Parts.Covers`). A positive quotient is scaled to a significand (`Binary64.IsScale`) and
rounded to an integer (`Binary64.within_roundHalfEven`), so it is rounded to the doubles whose
intervals have it (`Binary64.nearestBits_eq_iff`). A decimal is read as a finite double other than
zero exactly if it lies in the rounding interval of the double (`Numeral.nearestDecimal_eq_iff`).
-/

set_option autoImplicit false
set_option relaxedAutoImplicit false

namespace Metaobject.Number

/-! ### Intervals -/

/-- Whether a number lies between two others, which belong to the interval if it is closed. -/
def Within (closed : Prop) (lower upper number : ℚ) : Prop :=
  (lower < number ∨ closed ∧ lower = number) ∧ (number < upper ∨ closed ∧ number = upper)

namespace Within

variable {closed : Prop} {lower upper number : ℚ}

theorem lower_le (hwithin : Within closed lower upper number) : lower ≤ number :=
  hwithin.1.elim le_of_lt fun hend ↦ hend.2.le

theorem le_upper (hwithin : Within closed lower upper number) : number ≤ upper :=
  hwithin.2.elim le_of_lt fun hend ↦ hend.2.le

theorem of_lt (hlower : lower < number) (hupper : number < upper) :
    Within closed lower upper number :=
  ⟨Or.inl hlower, Or.inl hupper⟩

theorem of_le (hclosed : closed) (hlower : lower ≤ number) (hupper : number ≤ upper) :
    Within closed lower upper number :=
  ⟨hlower.lt_or_eq.imp_right fun hend ↦ ⟨hclosed, hend⟩,
    hupper.lt_or_eq.imp_right fun hend ↦ ⟨hclosed, hend⟩⟩

/-- An interval that begins earlier has what the interval has. -/
theorem of_lower_le {earlier : ℚ} (hwithin : Within closed lower upper number)
    (hearlier : earlier ≤ lower) : Within closed earlier upper number := by
  refine ⟨?_, hwithin.2⟩
  rcases hwithin.1 with hless | ⟨hclosed, hend⟩
  · exact Or.inl (hearlier.trans_lt hless)
  · exact (hearlier.trans_eq hend).lt_or_eq.imp_right fun hsame ↦ ⟨hclosed, hsame⟩

/-- What lies between two numbers of an interval lies in it. -/
theorem convex {first second : ℚ} (hfirst : Within closed lower upper first)
    (hsecond : Within closed lower upper second) (hleft : first ≤ number)
    (hright : number ≤ second) : Within closed lower upper number := by
  constructor
  · rcases hfirst.1 with hless | ⟨hclosed, hend⟩
    · exact Or.inl (hless.trans_le hleft)
    · exact (hend.trans_le hleft).lt_or_eq.imp_right fun hsame ↦ ⟨hclosed, hsame⟩
  · rcases hsecond.2 with hless | ⟨hclosed, hend⟩
    · exact Or.inl (hright.trans_lt hless)
    · exact (hright.trans_eq hend).lt_or_eq.imp_right fun hsame ↦ ⟨hclosed, hsame⟩

theorem mul_right_iff {factor : ℚ} (hfactor : 0 < factor) :
    Within closed (lower * factor) (upper * factor) (number * factor) ↔
      Within closed lower upper number := by
  simp only [Within, mul_lt_mul_iff_left₀ hfactor, mul_left_inj' hfactor.ne']

end Within

namespace Binary64

theorem eq_of_within {first second : Nat} {number : ℚ}
    (hfirst : Within (Even first) (first - 1 / 2) (first + 1 / 2) number)
    (hsecond : Within (Even second) (second - 1 / 2) (second + 1 / 2) number) :
    first = second := by
  wlog hle : first ≤ second generalizing first second
  · exact (this hsecond hfirst (by omega)).symm
  by_contra hne
  have hstep : (first : ℚ) + 1 ≤ second := by exact_mod_cast (by omega : first + 1 ≤ second)
  have hmiddle : number = first + 1 / 2 :=
    le_antisymm hfirst.le_upper (by linarith [hsecond.lower_le])
  have hnext : (second : ℚ) = first + 1 := by linarith [hsecond.lower_le]
  obtain ⟨heven, -⟩ := hfirst.2.resolve_left (by linarith)
  obtain ⟨hother, -⟩ := hsecond.1.resolve_left (by linarith)
  obtain rfl : second = first + 1 := by exact_mod_cast hnext
  exact (Nat.even_add_one.mp hother) heven

/-- The rounded quotient is off by at most a half, and even in a tie. -/
theorem within_roundHalfEven (numerator : Nat) {denominator : Nat}
    (hdenominator : 0 < denominator) :
    let rounded := roundHalfEven numerator denominator
    Within (Even rounded) (rounded - 1 / 2) (rounded + 1 / 2) (numerator / denominator : ℚ) := by
  have hpositive : (0 : ℚ) < denominator := Nat.cast_pos.mpr hdenominator
  have hparts : (numerator : ℚ) / denominator =
      (numerator / denominator : Nat) + (numerator % denominator : Nat) / denominator := by
    rw [div_eq_iff hpositive.ne', add_mul, div_mul_cancel₀ _ hpositive.ne']
    exact_mod_cast (Nat.div_add_mod' numerator denominator).symm
  have hnonneg : (0 : ℚ) ≤ (numerator % denominator : Nat) / denominator := by positivity
  have hbelow : ((numerator % denominator : Nat) : ℚ) / denominator < 1 := by
    rw [div_lt_one hpositive]
    exact_mod_cast Nat.mod_lt numerator hdenominator
  have hmore : (1 / 2 : ℚ) < (numerator % denominator : Nat) / denominator ↔
      denominator < 2 * (numerator % denominator) := by
    rw [div_lt_div_iff₀ two_pos hpositive, one_mul, mul_comm]
    norm_cast
  have htie : (1 / 2 : ℚ) = (numerator % denominator : Nat) / denominator ↔
      2 * (numerator % denominator) = denominator := by
    rw [div_eq_div_iff two_ne_zero hpositive.ne', one_mul, mul_comm, eq_comm]
    norm_cast
  rw [roundHalfEven, hparts]
  dsimp only
  generalize ((numerator % denominator : Nat) : ℚ) / denominator = rest at *
  split
  · rename_i hup
    rw [Nat.cast_add_one]
    refine ⟨?_, Or.inl (by linarith)⟩
    rcases hup with hgreater | ⟨hhalf, hodd⟩
    · have hrest := hmore.mpr hgreater
      exact Or.inl (by linarith)
    · have hrest := htie.mpr hhalf
      exact Or.inr ⟨(Nat.odd_iff.mpr hodd).add_one, by linarith⟩
  · rename_i hdown
    refine ⟨Or.inl (by linarith), ?_⟩
    have hrest : rest ≤ 1 / 2 := not_lt.mp fun hless ↦ hdown (Or.inl (hmore.mp hless))
    rcases hrest.lt_or_eq with hless | hhalf
    · exact Or.inl (by linarith)
    · have heven : ¬numerator / denominator % 2 = 1 := fun hodd ↦
        hdown (Or.inr ⟨htie.mp hhalf.symm, hodd⟩)
      exact Or.inr ⟨Nat.even_iff.mpr (by omega), by linarith⟩

/-! ### Scales -/

theorem scaled_spec (numerator : Nat) {denominator : Nat} (hdenominator : 0 < denominator)
    (exponent : Int) :
    0 < (scaled numerator denominator exponent).2 ∧
      ((scaled numerator denominator exponent).1 : ℚ) / (scaled numerator denominator exponent).2 =
        numerator / denominator / 2 ^ exponent := by
  rw [scaled]
  split
  · rename_i hexponent
    obtain ⟨power, rfl⟩ := Int.eq_ofNat_of_zero_le hexponent
    refine ⟨Nat.mul_pos hdenominator (Nat.pow_pos two_pos), ?_⟩
    rw [Nat.pow_eq, Int.toNat_natCast, zpow_natCast, div_div]
    push_cast
    rfl
  · rename_i hexponent
    obtain ⟨power, hpower⟩ : ∃ power : Nat, exponent = -power := ⟨(-exponent).toNat, by omega⟩
    refine ⟨hdenominator, ?_⟩
    rw [hpower, Nat.pow_eq, neg_neg, Int.toNat_natCast, zpow_neg, zpow_natCast, div_inv_eq_mul]
    push_cast
    ring

/-- Whether an exponent is that of the significand with which a number is rounded. -/
structure IsScale (number : ℚ) (exponent : Int) : Prop where
  least : minExponent ≤ exponent
  lt : number < 2 ^ 53 * 2 ^ exponent
  le : minExponent < exponent → 2 ^ 52 * 2 ^ exponent ≤ number

theorem IsScale.unique {number : ℚ} {first second : Int} (hfirst : IsScale number first)
    (hsecond : IsScale number second) : first = second := by
  wlog hle : first ≤ second generalizing first second
  · exact (this hsecond hfirst (by omega)).symm
  by_contra hne
  have hlower := hsecond.le (by have := hfirst.least; omega)
  have hpower : (2 : ℚ) ^ (first + 1) ≤ 2 ^ second := zpow_le_zpow_right₀ one_le_two (by omega)
  rw [zpow_add_one₀ two_ne_zero] at hpower
  linarith [hfirst.lt]

theorem isScale_max {number : ℚ} {exponent : Int} (hlt : number < 2 ^ 53 * 2 ^ exponent)
    (hle : 2 ^ 52 * 2 ^ exponent ≤ number) : IsScale number (max minExponent exponent) where
  least := le_max_left _ _
  lt := by
    have hpower : (2 : ℚ) ^ exponent ≤ 2 ^ max minExponent exponent :=
      zpow_le_zpow_right₀ one_le_two (le_max_right _ _)
    linarith
  le hless := by rwa [max_eq_right (lt_max_iff.mp hless |>.resolve_left (lt_irrefl _)).le]

theorem isScale_exponentFor {numerator denominator : Nat} (hnumerator : 0 < numerator)
    (hdenominator : 0 < denominator) :
    IsScale (numerator / denominator) (exponentFor numerator denominator) := by
  let estimate : Int := (numerator.log2 : Int) - denominator.log2 - 52
  have hpositive : (0 : ℚ) < denominator := Nat.cast_pos.mpr hdenominator
  have hleast : (2 : ℚ) ^ (51 + estimate) ≤ numerator / denominator := by
    have hfirst : (2 : ℚ) ^ numerator.log2 ≤ numerator := by
      exact_mod_cast Nat.log2_self_le hnumerator.ne'
    have hsecond : (denominator : ℚ) ≤ 2 ^ (denominator.log2 + 1) := by
      exact_mod_cast Nat.lt_log2_self.le
    rw [show 51 + estimate = (numerator.log2 : Int) - (denominator.log2 + 1 : Nat) by
      simp only [estimate]; omega, zpow_sub₀ two_ne_zero, zpow_natCast, zpow_natCast]
    exact div_le_div₀ (by positivity) hfirst hpositive hsecond
  have hmost : (numerator : ℚ) / denominator < 2 ^ (53 + estimate) := by
    have hfirst : (numerator : ℚ) < 2 ^ (numerator.log2 + 1) := by
      exact_mod_cast Nat.lt_log2_self
    have hsecond : (2 : ℚ) ^ denominator.log2 ≤ denominator := by
      exact_mod_cast Nat.log2_self_le hdenominator.ne'
    rw [show 53 + estimate = (numerator.log2 + 1 : Nat) - (denominator.log2 : Int) by
      simp only [estimate]; omega, zpow_sub₀ two_ne_zero, zpow_natCast, zpow_natCast]
    exact div_lt_div₀ hfirst hsecond (by positivity) (by positivity)
  obtain ⟨hscaled, hquotient⟩ := scaled_spec numerator hdenominator estimate
  have hsmall : (scaled numerator denominator estimate).1 /
      (scaled numerator denominator estimate).2 < 2 ^ 52 ↔
      (numerator : ℚ) / denominator < 2 ^ 52 * 2 ^ estimate := by
    rw [Nat.div_lt_iff_lt_mul hscaled, ← div_lt_iff₀ (by positivity), ← hquotient,
      div_lt_iff₀ (Nat.cast_pos.mpr hscaled)]
    norm_cast
  show IsScale _ (max minExponent (if (scaled numerator denominator estimate).1 /
    (scaled numerator denominator estimate).2 < 2 ^ 52 then estimate - 1 else estimate))
  rw [zpow_add₀ two_ne_zero] at hleast hmost
  split
  · rename_i hless
    have hpower : (2 : ℚ) ^ estimate = 2 ^ (estimate - 1) * 2 := by
      rw [← zpow_add_one₀ two_ne_zero, sub_add_cancel]
    have hless := hsmall.mp hless
    norm_num at hleast hless
    refine isScale_max ?_ ?_ <;> norm_num <;> linarith
  · rename_i hnotless
    have hnotless := not_lt.mp (mt hsmall.mpr hnotless)
    norm_num at hmost
    exact isScale_max (by norm_num; linarith) hnotless

/-! ### Rounding intervals -/

/-- How far below a double its rounding interval begins, in units of its last place. Below a power
of two the next double is only half as far away as above it. -/
def Parts.margin (parts : Parts) : ℚ :=
  if parts.significand = 2 ^ 52 ∧ minExponent < parts.exponent then 1 / 4 else 1 / 2

/-- Whether a number is rounded to the magnitude of a finite double: it lies in the interval between
the middles to the two next doubles, which has its ends if the significand is even. -/
def Parts.Covers (parts : Parts) (number : ℚ) : Prop :=
  Within (Even parts.significand) ((parts.significand - parts.margin) * 2 ^ parts.exponent)
    ((parts.significand + 1 / 2) * 2 ^ parts.exponent) number

theorem Parts.margin_pos (parts : Parts) : 0 < parts.margin := by
  rw [margin]
  split <;> norm_num

theorem Parts.margin_le (parts : Parts) : parts.margin ≤ 1 / 2 := by
  rw [margin]
  split <;> norm_num

theorem Parts.covers_iff (parts : Parts) (number : ℚ) :
    parts.Covers (number * 2 ^ parts.exponent) ↔ Within (Even parts.significand)
      (parts.significand - parts.margin) (parts.significand + 1 / 2) number :=
  Within.mul_right_iff (zpow_pos two_pos _)

theorem IsScale.lt_pow {number : ℚ} {exponent : Int}
    (hscale : IsScale (number * 2 ^ exponent) exponent) : number < 2 ^ 53 :=
  lt_of_mul_lt_mul_right hscale.lt (zpow_pos two_pos _).le

theorem IsScale.pow_le {number : ℚ} {exponent : Int}
    (hscale : IsScale (number * 2 ^ exponent) exponent) (hless : minExponent < exponent) :
    2 ^ 52 ≤ number :=
  le_of_mul_le_mul_right (hscale.le hless) (zpow_pos two_pos _)

section

variable {parts : Parts} {number : ℚ} {exponent : Int} {rounded : Nat}
  (hparts : parts.IsFinite) (hscale : IsScale (number * 2 ^ exponent) exponent)
  (hrounded : Within (Even rounded) (rounded - 1 / 2) (rounded + 1 / 2) number)

include hparts hscale hrounded

/-- What is rounded to the bits of a double lies in its rounding interval. -/
theorem covers_of_bits_eq
    (hbits : (exponent - minExponent).toNat * 2 ^ 52 + rounded = parts.bits) :
    parts.Covers (number * 2 ^ exponent) := by
  have hmost : rounded ≤ 2 ^ 53 := by
    have hless : (rounded : ℚ) < 2 ^ 53 + 1 := by linarith [hrounded.lower_le, hscale.lt_pow]
    exact Nat.lt_succ_iff.mp (by exact_mod_cast hless)
  have hleast : minExponent < exponent → 2 ^ 52 ≤ rounded := fun hless ↦ by
    have hmore : (2 ^ 52 : ℚ) < rounded + 1 := by
      linarith [hrounded.le_upper, hscale.pow_le hless]
    exact Nat.lt_succ_iff.mp (by exact_mod_cast hmore)
  have hsmall := hparts.small
  have hnormal := hparts.normal
  have hbelow := hscale.least
  have habove := hparts.least
  rw [Parts.bits] at hbits
  by_cases hcarry : rounded = 2 ^ 53
  · obtain ⟨hsignificand, hexponent⟩ :
        parts.significand = 2 ^ 52 ∧ parts.exponent = exponent + 1 := by omega
    have hmargin : parts.margin = 1 / 4 := if_pos ⟨hsignificand, by omega⟩
    have hhalf : number * 2 ^ exponent = number / 2 * 2 ^ parts.exponent := by
      rw [hexponent, zpow_add_one₀ two_ne_zero]
      ring
    have hlower := hrounded.lower_le
    rw [hcarry] at hlower
    push_cast at hlower
    rw [hhalf, parts.covers_iff, hmargin, hsignificand]
    refine .of_le ⟨2 ^ 51, by norm_num⟩ ?_ ?_
    · push_cast
      linarith
    · push_cast
      linarith [hscale.lt_pow]
  · obtain ⟨hsignificand, hexponent⟩ :
        parts.significand = rounded ∧ parts.exponent = exponent := by omega
    rw [← hexponent, parts.covers_iff, hsignificand, Parts.margin]
    split
    · rename_i hpower
      have hlower := hscale.pow_le (hexponent ▸ hpower.2)
      refine ⟨Or.inl ?_, hrounded.2⟩
      rw [← hsignificand, hpower.1]
      push_cast
      linarith
    · exact hrounded

theorem bits_eq_of_covers (hcovers : parts.Covers (number * 2 ^ exponent)) :
    (exponent - minExponent).toNat * 2 ^ 52 + rounded = parts.bits := by
  have hsmall : (parts.significand : ℚ) + 1 ≤ 2 ^ 53 := by exact_mod_cast hparts.small
  obtain ⟨shifted, hshifted⟩ :
      ∃ shifted : ℚ, number * 2 ^ exponent = shifted * 2 ^ parts.exponent :=
    ⟨_, (div_mul_cancel₀ _ (zpow_pos two_pos parts.exponent).ne').symm⟩
  rw [hshifted, parts.covers_iff] at hcovers
  have hmargin := parts.margin_le
  have hlower := hcovers.lower_le
  have hupper := hcovers.le_upper
  by_cases hlow : minExponent < parts.exponent ∧ shifted < 2 ^ 52
  · have hmost : (parts.significand : ℚ) < 2 ^ 52 + 1 := by linarith
    have hmost : parts.significand < 2 ^ 52 + 1 := by exact_mod_cast hmost
    have hpower : parts.significand = 2 ^ 52 := by
      have hleast := hparts.normal hlow.1
      omega
    rw [Parts.margin, if_pos ⟨hpower, hlow.1⟩, hpower] at hlower
    push_cast at hlower
    have hdouble : number * 2 ^ exponent = 2 * shifted * 2 ^ (parts.exponent - 1) := by
      rw [hshifted, zpow_sub_one₀ two_ne_zero]
      ring
    have hbelow : IsScale (number * 2 ^ exponent) (parts.exponent - 1) := by
      rw [hdouble]
      refine ⟨by omega, mul_lt_mul_of_pos_right (by linarith [hlow.2]) (zpow_pos two_pos _),
        fun _ ↦ mul_le_mul_of_nonneg_right (by linarith) (zpow_pos two_pos _).le⟩
    obtain rfl := hbelow.unique hscale
    obtain rfl : number = 2 * shifted := mul_right_cancel₀ (zpow_pos two_pos _).ne' hdouble
    have hcarry : rounded = 2 ^ 53 := by
      refine eq_of_within hrounded (.of_le ⟨2 ^ 52, by norm_num⟩ ?_ ?_)
      · push_cast
        linarith
      · push_cast
        linarith [hlow.2]
    rw [hcarry, Parts.bits, hpower]
    have hleast := hlow.1
    omega
  · have hown : IsScale (number * 2 ^ exponent) parts.exponent := by
      rw [hshifted]
      refine ⟨hparts.least, mul_lt_mul_of_pos_right (by linarith) (zpow_pos two_pos _),
        fun hless ↦ mul_le_mul_of_nonneg_right ?_ (zpow_pos two_pos _).le⟩
      exact not_lt.mp fun hsmaller ↦ hlow ⟨hless, hsmaller⟩
    obtain rfl := hown.unique hscale
    obtain rfl : number = shifted := mul_right_cancel₀ (zpow_pos two_pos _).ne' hshifted
    have hsame : rounded = parts.significand :=
      eq_of_within hrounded (hcovers.of_lower_le (by linarith))
    rw [hsame, Parts.bits]

end

/-- A quotient is rounded to the doubles whose rounding interval has it. -/
theorem nearestBits_eq_iff {parts : Parts} (hparts : parts.IsFinite) {numerator denominator : Nat}
    (hnumerator : 0 < numerator) (hdenominator : 0 < denominator) :
    nearestBits numerator denominator = parts.bits ↔
      parts.Covers (numerator / denominator) := by
  have hscale := isScale_exponentFor hnumerator hdenominator
  have hbits := hparts.bits_lt
  rw [nearestBits, if_neg hnumerator.ne']
  dsimp only
  generalize exponentFor numerator denominator = exponent at hscale ⊢
  obtain ⟨hpositive, hquotient⟩ := scaled_spec numerator hdenominator exponent
  have hrounded := within_roundHalfEven (scaled numerator denominator exponent).1 hpositive
  dsimp only at hrounded
  generalize roundHalfEven _ _ = rounded at hrounded ⊢
  rw [hquotient] at hrounded
  have hnumber : (numerator / denominator : ℚ) =
      numerator / denominator / 2 ^ exponent * 2 ^ exponent :=
    (div_mul_cancel₀ _ (zpow_pos two_pos _).ne').symm
  rw [hnumber] at hscale ⊢
  rw [← show (exponent - minExponent).toNat * 2 ^ 52 + rounded = parts.bits ↔ _ from
    ⟨covers_of_bits_eq hparts hscale hrounded, bits_eq_of_covers hparts hscale hrounded⟩]
  rw [storedBits, Nat.pow_eq]
  omega

/-- The rounding intervals of the finite doubles other than zero lie between two powers of two. -/
theorem Parts.Covers.bounds {parts : Parts} (hparts : parts.IsFinite)
    (hpositive : 0 < parts.significand) {number : ℚ} (hcovers : parts.Covers number) :
    2 ^ (-1075 : Int) ≤ number ∧ number < 2 ^ (1024 : Int) := by
  have hleast : (2 : ℚ) ^ (-1074 : Int) ≤ 2 ^ parts.exponent :=
    zpow_le_zpow_right₀ one_le_two hparts.least
  have hmost : (2 : ℚ) ^ parts.exponent ≤ 2 ^ (971 : Int) :=
    zpow_le_zpow_right₀ one_le_two hparts.most
  have hone : (1 : ℚ) ≤ parts.significand := by exact_mod_cast hpositive
  have hsmall : (parts.significand : ℚ) + 1 ≤ 2 ^ 53 := by exact_mod_cast hparts.small
  constructor
  · calc (2 : ℚ) ^ (-1075 : Int) = 1 / 2 * 2 ^ (-1074 : Int) := by
          rw [show (-1075 : Int) = -1074 - 1 by norm_num, zpow_sub_one₀ two_ne_zero]
          ring
      _ ≤ (parts.significand - parts.margin) * 2 ^ parts.exponent :=
          mul_le_mul (by linarith [parts.margin_le]) hleast (by positivity)
            (by linarith [parts.margin_le])
      _ ≤ number := hcovers.lower_le
  · calc number ≤ (parts.significand + 1 / 2) * 2 ^ parts.exponent := hcovers.le_upper
      _ ≤ (parts.significand + 1 / 2) * 2 ^ (971 : Int) :=
          mul_le_mul_of_nonneg_left hmost (by linarith)
      _ < 2 ^ 53 * 2 ^ (971 : Int) := mul_lt_mul_of_pos_right (by linarith) (by positivity)
      _ = 2 ^ (1024 : Int) := by
          rw [← zpow_natCast, ← zpow_add₀ two_ne_zero]
          norm_num

end Binary64

/-! ### Decimals -/

namespace Numeral

open Binary64

/-- A natural number lies between the powers of ten that its digits tell. -/
theorem pow_le_lt_pow {value : Nat} (hvalue : 0 < value) :
    (10 : ℚ) ^ ((Nat.toDigits 10 value).length - 1 : Int) ≤ value ∧
      (value : ℚ) < 10 ^ ((Nat.toDigits 10 value).length : Int) := by
  obtain ⟨length, hlength⟩ : ∃ length, (Nat.toDigits 10 value).length = length + 1 :=
    Nat.exists_eq_succ_of_ne_zero Nat.length_toDigits_pos.ne'
  have hmost : value < 10 ^ (length + 1) :=
    (Nat.length_toDigits_le_iff (by decide) (Nat.succ_pos length)).mp hlength.le
  have hleast : 10 ^ length ≤ value := by
    refine not_lt.mp fun hless ↦ ?_
    rcases Nat.eq_zero_or_pos length with rfl | hpositive
    · omega
    · have hshort := (Nat.length_toDigits_le_iff (by decide) hpositive).mpr hless
      omega
  rw [hlength, Nat.cast_add_one, add_sub_cancel_right, zpow_natCast, ← Nat.cast_add_one,
    zpow_natCast]
  exact ⟨by exact_mod_cast hleast, by exact_mod_cast hmost⟩

theorem two_pow_le_ten_pow (power : Nat) : (2 : ℚ) ^ (3 * power : Int) ≤ 10 ^ (power : Int) := by
  rw [zpow_mul, zpow_natCast, zpow_natCast]
  exact pow_le_pow_left₀ (by norm_num) (by norm_num) power

/-- A decimal is read as a finite double other than zero exactly if it lies in the rounding interval
of the double. -/
theorem nearestDecimal_eq_iff {number : Float} (hfinite : number.isFinite = true)
    (hpositive : 0 < (decode number).significand) {coefficient : Nat}
    (hcoefficient : 0 < coefficient) (exponent : Int) :
    nearestDecimal (isNegative number) coefficient exponent = number ↔
      (decode number).Covers (coefficient * 10 ^ exponent) := by
  have hparts := isFinite_decode hfinite
  have hten : (0 : ℚ) < 10 ^ exponent := by positivity
  obtain ⟨hleast, hmost⟩ := pow_le_lt_pow hcoefficient
  rw [nearestDecimal]
  split
  · rename_i hsmall
    have hpoint := hsmall.resolve_left hcoefficient.ne'
    refine iff_of_false (fun hread ↦ ?_) fun hcovers ↦ ?_
    · have hbits := ((ofRatio_eq_iff number 0 1).mp hread).symm
      rw [Parts.bits, nearestBits, if_pos rfl] at hbits
      omega
    · have hbound := (hcovers.bounds hparts hpositive).1
      refine absurd (hbound.trans_lt ?_) (lt_irrefl _)
      calc (coefficient : ℚ) * 10 ^ exponent
          < 10 ^ ((Nat.toDigits 10 coefficient).length : Int) * 10 ^ exponent :=
            mul_lt_mul_of_pos_right hmost hten
        _ = 10 ^ ((Nat.toDigits 10 coefficient).length + exponent) :=
            (zpow_add₀ (by norm_num) _ _).symm
        _ ≤ 10 ^ (-401 : Int) := zpow_le_zpow_right₀ (by norm_num) (by omega)
        _ ≤ 2 ^ (-1203 : Int) := by
            rw [zpow_neg, zpow_neg]
            exact inv_anti₀ (by positivity) (two_pow_le_ten_pow 401)
        _ ≤ 2 ^ (-1075 : Int) := zpow_le_zpow_right₀ one_le_two (by norm_num)
  · split
    · rename_i hlarge
      refine iff_of_false (fun hread ↦ ?_) fun hcovers ↦ ?_
      · have hinfinite : (if isNegative number then -infinity else infinity).isFinite = false := by
          split <;> decide
        rw [hread, hfinite] at hinfinite
        cases hinfinite
      · have hbound := (hcovers.bounds hparts hpositive).2
        refine absurd (hbound.trans_le ?_) (lt_irrefl _)
        calc (2 : ℚ) ^ (1024 : Int)
            ≤ 2 ^ (1200 : Int) := zpow_le_zpow_right₀ one_le_two (by norm_num)
          _ ≤ 10 ^ (400 : Int) := two_pow_le_ten_pow 400
          _ ≤ 10 ^ ((Nat.toDigits 10 coefficient).length - 1 + exponent) :=
              zpow_le_zpow_right₀ (by norm_num) (by omega)
          _ = 10 ^ ((Nat.toDigits 10 coefficient).length - 1 : Int) * 10 ^ exponent :=
              zpow_add₀ (by norm_num) _ _
          _ ≤ coefficient * 10 ^ exponent := mul_le_mul_of_nonneg_right hleast hten.le
    · split
      · rename_i hexponent
        obtain ⟨power, rfl⟩ := Int.eq_ofNat_of_zero_le hexponent
        rw [ofRatio_eq_iff, Nat.pow_eq, Int.toNat_natCast,
          nearestBits_eq_iff hparts (by positivity) one_pos, Nat.cast_one, div_one, Nat.cast_mul,
          Nat.cast_pow, zpow_natCast]
        rfl
      · rename_i hexponent
        obtain ⟨power, rfl⟩ : ∃ power : Nat, exponent = -power := ⟨(-exponent).toNat, by omega⟩
        rw [ofRatio_eq_iff, Nat.pow_eq, neg_neg, Int.toNat_natCast,
          nearestBits_eq_iff hparts hcoefficient (by positivity), Nat.cast_pow, zpow_neg,
          zpow_natCast, div_eq_mul_inv]
        rfl

end Numeral

end Metaobject.Number
