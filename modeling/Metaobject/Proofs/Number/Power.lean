import Mathlib.Algebra.Order.Ring.Abs
import Mathlib.Data.Int.GCD
import Mathlib.Data.Int.ModEq
import Mathlib.Data.Nat.Size
import Mathlib.Tactic.LinearCombination
import Mathlib.Tactic.Ring
import Metaobject.Number.Power

/-!
# Powers are powers

The ways in which powers are computed agree with exponentiation of integers. Repeated squaring gives
the power modulo a number (`powMod_eq`), the power by sign and magnitude is the power
(`integer_eq_pow`, `smallPower_eq_pow`), and reducing to the sign of the modulus gives the floor
remainder of the power (`modularNatural_eq_fmod`). A power that is not refused for its size
(`Exceeds`) has no more bits than the limit (`size_le_of_not_exceeds`). The division algorithm gives
the greatest common divisor and a combination that yields it (`bezout_eq_gcd`,
`bezout_combination`), so an inverse is found exactly for a base that is coprime to the modulus
(`inverse?_eq_none_iff`, `inverse?_mul_modEq`).

The remainders of a modulus are the integers on its side of zero that are closer to zero
(`IsRemainder`). Each integer is congruent to exactly one of them, its floor remainder
(`isRemainder_fmod`, `IsRemainder.eq_of_modEq`).
-/

set_option autoImplicit false
set_option relaxedAutoImplicit false

namespace Metaobject.Number.Power

/-! ### Remainders -/

/-- The remainders of a modulus: from zero up to a positive one, and from above a negative one up to
zero. -/
def IsRemainder (modulus remainder : Int) : Prop :=
  (0 < modulus → 0 ≤ remainder ∧ remainder < modulus) ∧
    (modulus < 0 → modulus < remainder ∧ remainder ≤ 0)

/-- The remainder that a natural number is taken for. -/
theorem toNat_emod (value : Int) {modulus : Nat} (hmodulus : modulus ≠ 0) :
    ((value % (modulus : Int)).toNat : Int) = value % (modulus : Int) :=
  Int.toNat_of_nonneg (Int.emod_nonneg value (Nat.cast_ne_zero.mpr hmodulus))

theorem fmod_modEq (value modulus : Int) : Int.fmod value modulus ≡ value [ZMOD modulus] := by
  rw [Int.modEq_iff_dvd, Int.fmod_def, sub_sub_cancel]
  exact dvd_mul_right _ _

/-- The floor remainder is a remainder. -/
theorem isRemainder_fmod (value modulus : Int) : IsRemainder modulus (Int.fmod value modulus) := by
  refine ⟨fun hpositive ↦ ⟨Int.fmod_nonneg_of_pos value hpositive,
    Int.fmod_lt_of_pos value hpositive⟩, fun hnegative ↦ ?_⟩
  have hopposite : 0 < -modulus := Int.neg_pos_of_neg hnegative
  have hleast := Int.fmod_nonneg_of_pos (-value) hopposite
  have hmost := Int.fmod_lt_of_pos (-value) hopposite
  rw [Int.neg_fmod_neg] at hleast hmost
  omega

/-- Congruent remainders are equal: they are less than the modulus apart. -/
theorem IsRemainder.eq_of_modEq {modulus first second : Int} (hmodulus : modulus ≠ 0)
    (hfirst : IsRemainder modulus first) (hsecond : IsRemainder modulus second)
    (hcongruent : first ≡ second [ZMOD modulus]) : first = second := by
  have hapart : |second - first| < |modulus| := by
    rcases lt_or_gt_of_ne hmodulus with hnegative | hpositive
    · have hfirst := hfirst.2 hnegative
      have hsecond := hsecond.2 hnegative
      rw [abs_of_neg hnegative, abs_lt]
      constructor <;> omega
    · have hfirst := hfirst.1 hpositive
      have hsecond := hsecond.1 hpositive
      rw [abs_of_pos hpositive, abs_lt]
      constructor <;> omega
  have hzero := Int.eq_zero_of_abs_lt_dvd
    ((abs_dvd modulus _).mpr (Int.modEq_iff_dvd.mp hcongruent)) hapart
  omega

/-- The floor remainder of an integer is the only remainder congruent to it. -/
theorem isRemainder_and_modEq_iff {modulus : Int} (hmodulus : modulus ≠ 0)
    (value remainder : Int) :
    IsRemainder modulus remainder ∧ remainder ≡ value [ZMOD modulus] ↔
      remainder = Int.fmod value modulus := by
  constructor
  · rintro ⟨hremainder, hcongruent⟩
    exact hremainder.eq_of_modEq hmodulus (isRemainder_fmod value modulus)
      (hcongruent.trans (fmod_modEq value modulus).symm)
  · rintro rfl
    exact ⟨isRemainder_fmod value modulus, fmod_modEq value modulus⟩

/-! ### Powers -/

/-- The sign of a power is the parity of the exponent. -/
theorem integer_eq_pow (base : Int) (exponent : Nat) : integer base exponent = base ^ exponent := by
  have hmagnitude : ((Nat.pow base.natAbs exponent : Nat) : Int) = |base| ^ exponent := by
    rw [Nat.pow_eq, Nat.cast_pow, Int.natCast_natAbs]
  unfold integer
  rw [hmagnitude]
  by_cases hnegative : base < 0
  · rcases Nat.even_or_odd exponent with heven | hodd
    · rw [if_neg fun hsign ↦ by simp [Nat.even_iff.mp heven] at hsign, heven.pow_abs]
    · rw [if_pos ⟨hnegative, Nat.odd_iff.mp hodd⟩, abs_of_neg hnegative, hodd.neg_pow, neg_neg]
  · rw [if_neg fun hsign ↦ hnegative hsign.1, abs_of_nonneg (not_lt.mp hnegative)]

theorem smallPower_eq_pow {base : Int} (hsmall : isSmallBase base) (exponent : Nat) :
    smallPower base exponent = base ^ exponent := by
  obtain (rfl | rfl) | rfl : (base = 0 ∨ base = 1) ∨ base = -1 := by
    simpa [isSmallBase] using hsmall
  · by_cases hzero : exponent = 0 <;> simp [smallPower, hzero]
  · simp [smallPower]
  · rcases Nat.even_or_odd exponent with heven | hodd
    · simp [smallPower, Nat.even_iff.mp heven, heven.neg_one_pow]
    · simp [smallPower, Nat.odd_iff.mp hodd, hodd.neg_one_pow]

/-- Repeated squaring: the power to the half of the exponent of the square, and the base once more
if the exponent is odd. -/
theorem powMod_eq (base exponent modulus : Nat) :
    powMod base exponent modulus = base ^ exponent % modulus := by
  induction exponent using Nat.strongRecOn generalizing base with
  | ind exponent ih =>
    unfold powMod
    by_cases hzero : exponent = 0
    · rw [if_pos hzero, hzero, pow_zero]
    have hroot : powMod (base * base % modulus) (exponent / 2) modulus =
        base ^ (2 * (exponent / 2)) % modulus := by
      rw [ih (exponent / 2) (by omega), ← Nat.pow_mod, ← pow_two, ← pow_mul]
    rw [if_neg hzero]
    dsimp only
    rw [hroot]
    rcases Nat.even_or_odd' exponent with ⟨half, rfl | rfl⟩
    · rw [if_neg (by omega), Nat.mul_div_cancel_left half (by decide)]
    · have hhalf : (2 * half + 1) / 2 = half := by omega
      rw [if_pos (by omega), hhalf, Nat.mul_mod, Nat.mod_mod, ← Nat.mul_mod, pow_succ, mul_comm]

/-- A power reduced to the sign of the modulus is the floor remainder of the power. -/
theorem modularNatural_eq_fmod {modulus : Int} (hmodulus : modulus ≠ 0) (base : Int)
    (exponent : Nat) :
    modularNatural base exponent modulus = Int.fmod (base ^ exponent) modulus := by
  have hcongruent : ((powMod (base % (modulus.natAbs : Int)).toNat exponent modulus.natAbs : Nat) :
      Int) ≡ base ^ exponent [ZMOD modulus] := by
    rw [powMod_eq, Int.natCast_mod, Nat.cast_pow, toNat_emod base (Int.natAbs_ne_zero.mpr hmodulus)]
    refine Int.ModEq.of_dvd (Int.dvd_natAbs.mpr dvd_rfl) ?_
    exact (Int.mod_modEq _ _).trans ((Int.mod_modEq base _).pow exponent)
  refine ((isRemainder_and_modEq_iff hmodulus _ _).mp ⟨isRemainder_fmod _ _, ?_⟩)
  exact (fmod_modEq _ _).trans hcongruent

/-! ### Sizes -/

theorem isSmallBase_iff (base : Int) : isSmallBase base = true ↔ base.natAbs < 2 := by
  simp only [isSmallBase, Bool.or_eq_true, beq_iff_eq]
  omega

/-- The number of binary digits is the least exponent of a greater power of two. -/
theorem bitLength_eq_size (value : Nat) : bitLength value = value.size := by
  unfold bitLength
  by_cases hzero : value = 0
  · rw [if_pos hzero, hzero, Nat.size_zero]
  · rw [if_neg hzero]
    refine le_antisymm ?_ (Nat.size_le.mpr Nat.lt_log2_self)
    exact Nat.lt_size.mpr (Nat.log2_self_le hzero)

/-- A power has no more digits than its factors have together, unless there are none. -/
theorem size_pow_le (base : Nat) {exponent : Nat} (hexponent : exponent ≠ 0) :
    (base ^ exponent).size ≤ base.size * exponent := by
  rw [Nat.size_le, pow_mul]
  exact Nat.pow_lt_pow_left base.lt_size_self hexponent

/-- Whether a power is refused for its size: that of a base of two or more in magnitude to an
exponent of more than thirty-two bits, or with more bits than the limit when every factor counts
with all of its bits. -/
def Exceeds (limit : Nat) (base : Int) (exponent : Nat) : Prop :=
  2 ≤ base.natAbs ∧ (2 ^ 32 ≤ exponent ∨ limit < base.natAbs.size * exponent)

/-- Telling sizes apart only up to the greatest one makes no difference below it. -/
theorem lt_sizeBound_iff {limit : Nat} (hlimit : limit < 2 ^ 64 - 1) (base : Int)
    (exponent : Nat) :
    limit < sizeBound base exponent ↔ limit < base.natAbs.size * exponent := by
  have hgreatest : greatestSize = 2 ^ 64 - 1 := by decide
  rw [sizeBound, bitLength_eq_size, lt_min_iff, hgreatest, and_iff_left hlimit]

/-- A power that is not refused keeps to the limit, unless it is zero or a unit. -/
theorem size_le_of_not_exceeds {limit exponent : Nat} {base : Int}
    (hwithin : ¬Exceeds limit base exponent) (hlarge : 2 ≤ (base ^ exponent).natAbs) :
    (base ^ exponent).natAbs.size ≤ limit := by
  rw [Int.natAbs_pow] at hlarge ⊢
  have hexponent : exponent ≠ 0 := by
    rintro rfl
    rw [pow_zero] at hlarge
    omega
  have hbase : 2 ≤ base.natAbs := by
    by_contra hsmall
    have hpower := Nat.pow_le_pow_left (Nat.le_of_lt_succ (not_le.mp hsmall)) exponent
    rw [one_pow] at hpower
    omega
  have hproduct : base.natAbs.size * exponent ≤ limit :=
    not_lt.mp fun hexceeds ↦ hwithin ⟨hbase, Or.inr hexceeds⟩
  exact (size_pow_le base.natAbs hexponent).trans hproduct

/-! ### Inverses -/

theorem bezout_eq_gcd (first second : Nat) : (bezout first second).1 = Nat.gcd first second := by
  induction second using Nat.strongRecOn generalizing first with
  | ind second ih =>
    unfold bezout
    by_cases hzero : second = 0
    · rw [if_pos hzero, hzero, Nat.gcd_zero_right]
    · rw [if_neg hzero]
      have hrest := ih (first % second) (Nat.mod_lt _ (Nat.pos_of_ne_zero hzero)) second
      dsimp only
      rw [hrest, Nat.gcd_comm second, ← Nat.gcd_rec, Nat.gcd_comm]

theorem bezout_combination (first second : Nat) :
    (first : Int) * (bezout first second).2.1 + second * (bezout first second).2.2 =
      (bezout first second).1 := by
  induction second using Nat.strongRecOn generalizing first with
  | ind second ih =>
    unfold bezout
    by_cases hzero : second = 0
    · simp [hzero]
    · rw [if_neg hzero]
      have hrest := ih (first % second) (Nat.mod_lt _ (Nat.pos_of_ne_zero hzero)) second
      have hdivision :
          (first : Int) = second * (first / second : Nat) + (first % second : Nat) := by
        exact_mod_cast (Nat.div_add_mod first second).symm
      dsimp only
      rw [← hrest]
      linear_combination (bezout second (first % second)).2.2 * hdivision

/-- There is no inverse exactly of a base that shares a divisor with the modulus. -/
theorem inverse?_eq_none_iff {base : Int} {modulus : Nat} (hmodulus : modulus ≠ 0) :
    inverse? base modulus = none ↔ Int.gcd base modulus ≠ 1 := by
  have hgcd : (bezout (base % (modulus : Int)).toNat modulus).1 = Int.gcd base modulus := by
    rw [bezout_eq_gcd, ← Int.gcd_natCast_natCast, toNat_emod base hmodulus, Int.gcd_emod]
  unfold inverse?
  dsimp only
  rw [hgcd]
  split
  · simp_all
  · simp_all

/-- The inverse of a base times the base is one. -/
theorem inverse?_mul_modEq {base : Int} {modulus inverse : Nat} (hmodulus : modulus ≠ 0)
    (hinverse : inverse? base modulus = some inverse) :
    (inverse : Int) * base ≡ 1 [ZMOD modulus] := by
  have hcombination := bezout_combination (base % (modulus : Int)).toNat modulus
  rw [toNat_emod base hmodulus] at hcombination
  unfold inverse? at hinverse
  generalize bezout (base % (modulus : Int)).toNat modulus = found at hcombination hinverse
  obtain ⟨divisor, coefficient, other⟩ := found
  dsimp only at hcombination hinverse
  split at hinverse
  · rename_i hcoprime
    obtain rfl := Option.some.inj hinverse
    rw [hcoprime, Nat.cast_one] at hcombination
    rw [toNat_emod coefficient hmodulus]
    refine ((Int.mod_modEq coefficient _).mul (Int.mod_modEq base _).symm).trans ?_
    exact Int.modEq_iff_dvd.mpr ⟨other, by linear_combination -hcombination⟩
  · cases hinverse

/-! ### Modular powers -/

/-- A power to a natural exponent is its floor remainder. -/
theorem modular_eq_fmod {base exponent modulus : Int} (hmodulus : modulus ≠ 0)
    (hexponent : 0 ≤ exponent) :
    modular base exponent modulus = .ok (Int.fmod (base ^ exponent.toNat) modulus) := by
  rw [modular, if_neg hmodulus, if_pos hexponent, modularNatural_eq_fmod hmodulus]

/-- A power to a negative exponent is the remainder that is inverse to the opposite power. Any other
such remainder is congruent to it, as it is itself inverse to that inverse. -/
theorem modular_of_coprime {base exponent modulus : Int} (hmodulus : modulus ≠ 0)
    (hexponent : exponent < 0) (hcoprime : Int.gcd base modulus = 1) :
    ∃ power, modular base exponent modulus = .ok power ∧ ∀ remainder,
      IsRemainder modulus remainder ∧ remainder * base ^ (-exponent).toNat ≡ 1 [ZMOD modulus] ↔
        remainder = power := by
  have hsize : modulus.natAbs ≠ 0 := Int.natAbs_ne_zero.mpr hmodulus
  obtain ⟨inverse, hinverse⟩ : ∃ inverse, inverse? base modulus.natAbs = some inverse :=
    Option.ne_none_iff_exists'.mp fun hnone ↦ (inverse?_eq_none_iff hsize).mp hnone hcoprime
  have hone : (inverse : Int) * base ≡ 1 [ZMOD modulus] :=
    (inverse?_mul_modEq hsize hinverse).of_dvd (Int.dvd_natAbs.mpr dvd_rfl)
  generalize hcount : (-exponent).toNat = count
  have hpower : (inverse : Int) ^ count * base ^ count ≡ 1 [ZMOD modulus] := by
    rw [← mul_pow]
    simpa using hone.pow count
  refine ⟨Int.fmod ((inverse : Int) ^ count) modulus, ?_, fun remainder ↦ ?_⟩
  · rw [modular, if_neg hmodulus, if_neg (not_le.mpr hexponent), hinverse]
    simp only [hcount, modularNatural_eq_fmod hmodulus]
  · rw [← isRemainder_and_modEq_iff hmodulus]
    refine and_congr_right fun _ ↦ ⟨fun hinverted ↦ ?_, fun hcongruent ↦ ?_⟩
    · calc remainder = remainder * 1 := (mul_one remainder).symm
        _ ≡ remainder * ((inverse : Int) ^ count * base ^ count) [ZMOD modulus] :=
          hpower.symm.mul_left remainder
        _ = remainder * base ^ count * (inverse : Int) ^ count := by ring
        _ ≡ 1 * (inverse : Int) ^ count [ZMOD modulus] := hinverted.mul_right _
        _ = (inverse : Int) ^ count := one_mul _
    · exact (hcongruent.mul_right _).trans hpower

/-- A base that shares a divisor with the modulus has no power to a negative exponent. -/
theorem modular_of_not_coprime {base exponent modulus : Int} (hmodulus : modulus ≠ 0)
    (hexponent : exponent < 0) (hshared : Int.gcd base modulus ≠ 1) :
    modular base exponent modulus =
      .error (.valueError "base is not invertible for the given modulus") := by
  have hnone : inverse? base modulus.natAbs = none :=
    (inverse?_eq_none_iff (Int.natAbs_ne_zero.mpr hmodulus)).mpr hshared
  rw [modular, if_neg hmodulus, if_neg (not_le.mpr hexponent), hnone]

end Metaobject.Number.Power
