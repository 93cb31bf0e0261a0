import Mathlib
import Metaobject.Number.Binary64

/-!
# Doubles and their bits

The parts of a finite double determine its bits, and the bits the double: bits up to those of
infinity are kept (`toBits_ofBits`). The bits of the magnitude of a double are read off its parts
(`bits_decode`), so a rounded quotient is a given double exactly if it has the sign and the bits of
that double (`ofRatio_eq_iff`). A finite double other than zero has a significand
(`significand_pos`), and it is negative exactly if its sign bit is set (`lt_zero_iff`).
-/

set_option autoImplicit false
set_option relaxedAutoImplicit false

namespace Metaobject.Number.Binary64

open Float.Model (Format UnpackedFloat)
open Float.Model.UnpackedFloat

/-! ### Sixty-four bits -/

section

variable {bits : BitVec 64}

theorem toNat_unpackMantissa (bits : BitVec 64) :
    (@unpackMantissa .binary64 bits).toNat = bits.toNat % 2 ^ 52 := by
  simp [unpackMantissa]

theorem toNat_unpackExponent (bits : BitVec 64) :
    (@unpackExponent .binary64 bits).toNat = bits.toNat / 2 ^ 52 % 2 ^ 11 := by
  simp [unpackExponent, Nat.shiftRight_eq_div_pow]

theorem toNat_unpackSign (bits : BitVec 64) :
    (@unpackSign .binary64 bits).toNat = bits.toNat / 2 ^ 63 := by
  have hlt : bits.toNat < 2 ^ 64 := bits.isLt
  simp [unpackSign, Nat.shiftRight_eq_div_pow]
  omega

theorem ofBitVec_eq_negative_iff (sign : BitVec 1) :
    Sign.ofBitVec sign = .negative ↔ sign.toNat ≠ 0 := by
  rw [Sign.ofBitVec]
  split
  · rename_i hzero
    exact iff_of_false Sign.noConfusion fun hone ↦ hone (congrArg BitVec.toNat hzero)
  · rename_i hone
    exact iff_of_true rfl fun hzero ↦ hone (BitVec.eq_of_toNat_eq hzero)

/-- With a field of ones a double is infinite or not a number. -/
theorem isFinite_unpack (hfield : bits.toNat / 2 ^ 52 % 2 ^ 11 = 2047) :
    (unpack .binary64 bits).isFinite = false := by
  have hones : @unpackExponent .binary64 bits = -1 :=
    BitVec.eq_of_toNat_eq ((toNat_unpackExponent bits).trans hfield)
  fun_cases unpack with
  | case1 | case2 => rfl
  | case3 stored field signBit sign hordinary => exact absurd hones hordinary
  | case4 stored field exponent signBit sign hordinary => exact absurd hones hordinary
  | case5 stored field exponent signBit sign hordinary => exact absurd hones hordinary

/-- What is not a number has larger bits than infinity. -/
theorem not_isNaNBits (hbits : bits.toNat % 2 ^ 63 ≤ infinityBits) :
    ¬@isNaNBits .binary64 bits = true := by
  have hinfinity : infinityBits = 2047 * 2 ^ 52 := rfl
  rw [isNaNBits, decide_eq_true_iff]
  rintro ⟨hfield, hstored⟩
  have hones : (@unpackExponent .binary64 bits).toNat = 2047 := congrArg BitVec.toNat hfield
  have hsome : (@unpackMantissa .binary64 bits).toNat ≠ 0 := fun hzero ↦
    hstored (BitVec.eq_of_toNat_eq hzero)
  rw [toNat_unpackExponent] at hones
  rw [toNat_unpackMantissa] at hsome
  omega

end

theorem toBits_ofBits {bits : UInt64} (hbits : bits.toNat % 2 ^ 63 ≤ infinityBits) :
    (Float.ofBits bits).toBits = bits :=
  congrArg UInt64.ofBitVec
    ((@pack_unpack .binary64 bits.toBitVec (by decide)).trans (if_neg (not_isNaNBits hbits)))

theorem toBits_eq_iff {first second : Float} :
    first.toBits.toNat = second.toBits.toNat ↔ first = second :=
  UInt64.toNat_inj.trans Float.toBits_inj

/-! ### Parts of finite doubles -/

/-- Whether parts are those of a finite double. -/
structure Parts.IsFinite (parts : Parts) : Prop where
  small : parts.significand < 2 ^ 53
  least : minExponent ≤ parts.exponent
  most : parts.exponent ≤ 971
  normal : minExponent < parts.exponent → 2 ^ 52 ≤ parts.significand

/-- The bits of the magnitude. -/
def Parts.bits (parts : Parts) : Nat :=
  (parts.exponent - minExponent).toNat * 2 ^ 52 + parts.significand

theorem Parts.IsFinite.bits_lt {parts : Parts} (hparts : parts.IsFinite) :
    parts.bits < infinityBits := by
  have hsmall := hparts.small
  have hmost := hparts.most
  have hinfinity : infinityBits = 2047 * 2 ^ 52 := rfl
  have hleast : minExponent = -1074 := rfl
  rw [bits]
  omega

section

variable {number : Float}

theorem decode_of_field_eq_zero (hfield : number.toBits.toNat / 2 ^ 52 % 2 ^ 11 = 0) :
    decode number = ⟨isNegative number, number.toBits.toNat % 2 ^ 52, minExponent⟩ :=
  if_pos hfield

theorem decode_of_field_ne_zero (hfield : number.toBits.toNat / 2 ^ 52 % 2 ^ 11 ≠ 0) :
    decode number = ⟨isNegative number, number.toBits.toNat % 2 ^ 52 + 2 ^ 52,
      minExponent + (number.toBits.toNat / 2 ^ 52 % 2 ^ 11 - 1 : Nat)⟩ :=
  if_neg hfield

theorem negative_decode (number : Float) : (decode number).negative = isNegative number := by
  by_cases hfield : number.toBits.toNat / 2 ^ 52 % 2 ^ 11 = 0
  · rw [decode_of_field_eq_zero hfield]
  · rw [decode_of_field_ne_zero hfield]

theorem isFinite_decode (hfinite : number.isFinite = true) : (decode number).IsFinite := by
  have hleast : minExponent = -1074 := rfl
  have hordinary : number.toBits.toNat / 2 ^ 52 % 2 ^ 11 ≠ 2047 := fun hones ↦
    Bool.noConfusion (hfinite.symm.trans (@isFinite_unpack number.toBits.toBitVec hones))
  by_cases hfield : number.toBits.toNat / 2 ^ 52 % 2 ^ 11 = 0
  · rw [decode_of_field_eq_zero hfield]
    exact
      { small := by dsimp only; omega
        least := le_rfl
        most := by dsimp only; omega
        normal := fun hless ↦ absurd hless (lt_irrefl _) }
  · rw [decode_of_field_ne_zero hfield]
    exact
      { small := by dsimp only; omega
        least := by dsimp only; omega
        most := by dsimp only; omega
        normal := fun _ ↦ Nat.le_add_left _ _ }

theorem bits_decode (number : Float) : (decode number).bits = number.toBits.toNat % 2 ^ 63 := by
  by_cases hfield : number.toBits.toNat / 2 ^ 52 % 2 ^ 11 = 0
  · rw [decode_of_field_eq_zero hfield, Parts.bits]
    dsimp only
    omega
  · rw [decode_of_field_ne_zero hfield, Parts.bits]
    dsimp only
    omega

/-- A double that is not zero has a significand. -/
theorem significand_pos (hnonzero : (number == 0) = false) : 0 < (decode number).significand := by
  refine Nat.pos_of_ne_zero fun hzero ↦ ?_
  have hlt := number.toBits.toNat_lt
  have hbits : number.toBits.toNat = 0 ∨ number.toBits.toNat = 2 ^ 63 := by
    by_cases hfield : number.toBits.toNat / 2 ^ 52 % 2 ^ 11 = 0
    · rw [decode_of_field_eq_zero hfield] at hzero
      dsimp only at hzero
      omega
    · rw [decode_of_field_ne_zero hfield] at hzero
      dsimp only at hzero
      omega
  rcases hbits with hplus | hminus
  · obtain rfl : number = 0 := toBits_eq_iff.mp hplus
    exact absurd hnonzero (by decide)
  · obtain rfl : number = -0 := toBits_eq_iff.mp hminus
    exact absurd hnonzero (by decide)

end

/-! ### Signs -/

theorem lt_zero_iff_compare (number : Float) : number < 0 ↔
    (unpack .binary64 number.toBits.toBitVec).compare (.zero .positive) = some .lt := by
  have hzero : (0 : Float).toModel.unpack = .zero .positive := rfl
  show decide ((UnpackedFloat.compare _ (0 : Float).toModel.unpack == some .lt) = true) = true ↔ _
  rw [decide_eq_true_iff, hzero]
  exact beq_iff_eq

theorem compare_finite_zero (sign : Sign) (significand : Nat) (exponent : Int)
    (hpositive : 0 < significand) :
    (UnpackedFloat.finite sign significand exponent hpositive).compare (.zero .positive) =
      some .lt ↔ sign = .negative := by
  cases sign with
  | negative => exact iff_of_true rfl rfl
  | positive =>
    exact iff_of_false (fun hless ↦ Ordering.noConfusion (Option.some.inj hless)) Sign.noConfusion

/-- A finite double other than zero is negative if its sign bit is set. -/
theorem lt_zero_iff {number : Float} (hfinite : number.isFinite = true)
    (hnonzero : (number == 0) = false) : number < 0 ↔ isNegative number = true := by
  have hlt := number.toBits.toNat_lt
  have hbit : (@unpackSign .binary64 number.toBits.toBitVec).toNat =
      number.toBits.toNat / 2 ^ 63 := toNat_unpackSign _
  have hsign : Sign.ofBitVec (@unpackSign .binary64 number.toBits.toBitVec) = .negative ↔
      isNegative number = true := by
    rw [isNegative, decide_eq_true_iff, ofBitVec_eq_negative_iff, hbit]
    omega
  change (unpack .binary64 number.toBits.toBitVec).isFinite = true at hfinite
  change ((unpack .binary64 number.toBits.toBitVec).compare (.zero .positive) == some .eq) =
    false at hnonzero
  rw [lt_zero_iff_compare, ← hsign]
  revert hfinite hnonzero
  fun_cases unpack with
  | case1 | case2 => exact fun hfinite ↦ Bool.noConfusion hfinite
  | case3 => exact fun _ hnonzero ↦ Bool.noConfusion hnonzero
  | case4 | case5 => exact fun _ _ ↦ compare_finite_zero _ _ _ _

/-! ### Rounded quotients -/

theorem nearestBits_le (numerator denominator : Nat) :
    nearestBits numerator denominator ≤ infinityBits := by
  rw [nearestBits]
  split
  · exact Nat.zero_le _
  · exact min_le_left _ _

theorem toNat_toBits_ofRatio (negative : Bool) (numerator denominator : Nat) :
    (ofRatio negative numerator denominator).toBits.toNat =
      nearestBits numerator denominator + if negative then 2 ^ 63 else 0 := by
  have hinfinity : infinityBits = 2047 * 2 ^ 52 := rfl
  have hlimit := nearestBits_le numerator denominator
  rw [ofRatio]
  generalize nearestBits numerator denominator = magnitude at hlimit
  have hbits : (UInt64.ofNat
      (if negative then magnitude + 0x8000000000000000 else magnitude)).toNat =
        magnitude + if negative then 2 ^ 63 else 0 := by
    rw [UInt64.toNat_ofNat']
    split <;> omega
  rw [toBits_ofBits, hbits]
  rw [hbits]
  split <;> omega

/-- A quotient is rounded to a double if it is given the sign of the double and has the bits of its
magnitude. -/
theorem ofRatio_eq_iff (number : Float) (numerator denominator : Nat) :
    ofRatio (isNegative number) numerator denominator = number ↔
      nearestBits numerator denominator = (decode number).bits := by
  have hinfinity : infinityBits = 2047 * 2 ^ 52 := rfl
  have hlimit := nearestBits_le numerator denominator
  have hlt := number.toBits.toNat_lt
  have hsign : isNegative number = true ↔ 2 ^ 63 ≤ number.toBits.toNat := decide_eq_true_iff
  rw [← toBits_eq_iff, toNat_toBits_ofRatio, bits_decode]
  by_cases hnegative : isNegative number = true
  · have hlarge := hsign.mp hnegative
    rw [if_pos hnegative]
    omega
  · have hsmall := mt hsign.mpr hnegative
    rw [if_neg hnegative]
    omega

end Metaobject.Number.Binary64
