import Metaobject.Number.FloatText
import Metaobject.Proofs.Number.Shortest

/-!
# How doubles are written

The two notations of a decimal, told by what their parts stand for. In positional notation there are
digits on both sides of the point (`IsPositional`); with an exponent there is one digit before the
point, and the exponent has a sign and at least two digits (`IsExponential`). Each determines the
text. Respelling leaves a number in positional notation as it is printed (`respelled_positional`)
and changes only what follows the letter otherwise (`respelled_append`), so the point of a decimal
chooses the notation in which it ends up (`respelled_unsigned`). A finite double other than zero is
a sign and its shortest decimal (`toList_text`).
-/

set_option autoImplicit false
set_option relaxedAutoImplicit false

namespace Metaobject.Number.FloatText

open Numeral Shortest

/-! ### Notations -/

/-- Whether digits are those of an exponent: at least two, with a zero at the front only if there
are no more. -/
structure IsExponent (value : Nat) (written : List Char) : Prop where
  digits : ∀ digit ∈ written, digit.isDigit = true
  value : digitsValue written = value
  two : 2 ≤ written.length
  first : 2 < written.length → written.head? ≠ some '0'

/-- Whether a text has the first digit of a decimal, the others after a point if there are any, and
the exponent with its sign. -/
def IsExponential (decimal : Decimal) (text : List Char) : Prop :=
  ∃ first rest exponent, decimal.digits = first :: rest ∧
    IsExponent (decimal.point - 1).natAbs exponent ∧
    text = first :: (if rest = [] then [] else '.' :: rest) ++
      'e' :: (if decimal.point - 1 < 0 then '-' else '+') :: exponent

/-- Whether a text has digits on both sides of a point that stand for a decimal. A zero stands at an
end only if there is no other digit on its side. -/
def IsPositional (decimal : Decimal) (text : List Char) : Prop :=
  ∃ whole fraction, text = whole ++ '.' :: fraction ∧ whole ≠ [] ∧ fraction ≠ [] ∧
    (∀ digit ∈ whole ++ fraction, digit.isDigit = true) ∧
    (digitsValue (whole ++ fraction) : ℚ) / 10 ^ fraction.length = decimal.value ∧
    (whole.head? = some '0' → whole = ['0']) ∧ (fraction.getLast? = some '0' → fraction = ['0'])

theorem isExponent_padded (value : Nat) :
    IsExponent value (padded exponentDigits (Nat.toDigits 10 value)) := by
  have hwritten : ∀ digit ∈ Nat.toDigits 10 value, digit.isDigit = true := fun digit hdigit ↦
    Nat.isDigit_of_mem_toDigits (by decide) (by decide) hdigit
  rw [padded, exponentDigits]
  refine ⟨fun digit hdigit ↦ ?_, ?_, ?_, fun hlonger ↦ ?_⟩
  · exact (List.mem_append.mp hdigit).elim (isDigit_of_mem_zeros _ digit) (hwritten digit)
  · rw [digitsValue_append, digitsValue_replicate_zero, zero_mul, zero_add, digitsValue_toDigits]
  · rw [List.length_append, List.length_replicate]
    omega
  · rw [List.length_append, List.length_replicate] at hlonger
    have hlarge : 2 < (Nat.toDigits 10 value).length := by omega
    rw [show 2 - (Nat.toDigits 10 value).length = 0 by omega, List.replicate_zero, List.nil_append]
    refine head?_toDigits (Nat.pos_of_ne_zero fun hzero ↦ ?_)
    rw [hzero] at hlarge
    exact absurd hlarge (by decide)

/-- Digits with some of them after a point stand for a decimal if they are its digits with zeros
after them, and the point is where it belongs. -/
theorem div_eq_value {decimal : Decimal} {digits : List Char} {shift count : Nat}
    (hdigits : digitsValue digits = digitsValue decimal.digits * 10 ^ shift)
    (hcount : (count : Int) = decimal.digits.length - decimal.point + shift) :
    (digitsValue digits : ℚ) / 10 ^ count = decimal.value := by
  rw [Decimal.value, hdigits, div_eq_mul_inv, ← zpow_natCast, ← zpow_neg, hcount, Nat.cast_mul,
    Nat.cast_pow, Nat.cast_ofNat, mul_assoc, ← zpow_natCast, ← zpow_add₀ (by norm_num)]
  congr 2
  omega

theorem isPositional_positional {decimal : Decimal} (hproper : decimal.Proper) :
    IsPositional decimal (positional decimal) := by
  have hlength := hproper.length_pos
  have hsome : decimal.digits ≠ [] := List.length_pos_iff.mp hlength
  rw [positional]
  split
  · rename_i hsmall
    refine ⟨['0'], _, rfl, List.cons_ne_nil _ _, List.append_ne_nil_of_right_ne_nil _ hsome, ?_,
      @div_eq_value decimal _ 0 _ ?_ ?_, fun _ ↦ rfl, fun hzero ↦ absurd ?_ hproper.getLast?_ne⟩
    · exact List.forall_mem_append.mpr ⟨isDigit_of_mem_zeros 1, List.forall_mem_append.mpr
        ⟨isDigit_of_mem_zeros _, hproper.digits⟩⟩
    · rw [digitsValue_append, digitsValue_append, digitsValue_replicate_zero]
      simp [show digitsValue ['0'] = 0 from rfl]
    · rw [List.length_append, List.length_replicate]
      omega
    · rwa [List.getLast?_append_of_ne_nil _ hsome] at hzero
  · split
    · rename_i hlarge
      refine ⟨decimal.digits ++ List.replicate (decimal.point - decimal.digits.length).toNat '0',
        ['0'], rfl, List.append_ne_nil_of_left_ne_nil hsome _, List.cons_ne_nil _ _, ?_,
        @div_eq_value decimal _ ((decimal.point - decimal.digits.length).toNat + 1) _ ?_ ?_,
        fun hzero ↦ absurd ?_ hproper.head?_ne, fun _ ↦ rfl⟩
      · exact List.forall_mem_append.mpr ⟨List.forall_mem_append.mpr
          ⟨hproper.digits, isDigit_of_mem_zeros _⟩, isDigit_of_mem_zeros 1⟩
      · rw [digitsValue_append, digitsValue_append, digitsValue_replicate_zero,
          List.length_replicate, pow_succ, ← mul_assoc]
        rfl
      · rw [List.length_singleton]
        omega
      · rwa [List.head?_append_of_ne_nil _ hsome] at hzero
    · rename_i hpositive hless
      have htake : decimal.digits.take decimal.point.toNat ≠ [] := by
        rw [ne_eq, List.take_eq_nil_iff]
        exact not_or.mpr ⟨by omega, hsome⟩
      have hdrop : decimal.digits.drop decimal.point.toNat ≠ [] := by
        rw [ne_eq, List.drop_eq_nil_iff]
        omega
      have hdigits := List.take_append_drop decimal.point.toNat decimal.digits
      refine ⟨_, _, rfl, htake, hdrop, by rw [hdigits]; exact hproper.digits,
        @div_eq_value decimal _ 0 _ (by rw [hdigits, pow_zero, mul_one]) ?_,
        fun hzero ↦ absurd ?_ hproper.head?_ne, fun hzero ↦ absurd ?_ hproper.getLast?_ne⟩
      · rw [List.length_drop]
        omega
      · rwa [← List.head?_append_of_ne_nil _ htake, hdigits] at hzero
      · rwa [← List.getLast?_append_of_ne_nil _ hdrop, hdigits] at hzero

section

variable {decimal : Decimal} {text : List Char}

theorem IsExponential.mem (hexponential : IsExponential decimal text) : 'e' ∈ text := by
  obtain ⟨first, rest, exponent, -, -, rfl⟩ := hexponential
  exact List.mem_append_right _ List.mem_cons_self

theorem IsPositional.not_mem (hpositional : IsPositional decimal text) : 'e' ∉ text := by
  obtain ⟨whole, fraction, rfl, -, -, hdigits, -⟩ := hpositional
  intro hletter
  have hdigit : 'e' ∈ whole ++ fraction := by simpa using hletter
  exact absurd (hdigits 'e' hdigit) (by decide)

theorem IsExponential.head?_ne (hproper : decimal.Proper)
    (hexponential : IsExponential decimal text) : text.head? ≠ some '-' := by
  obtain ⟨first, rest, exponent, hdigits, -, rfl⟩ := hexponential
  rintro hsign
  obtain rfl : first = '-' := Option.some.inj hsign
  exact absurd (hproper.digits '-' (hdigits ▸ List.mem_cons_self)) (by decide)

theorem IsPositional.head?_ne (hpositional : IsPositional decimal text) :
    text.head? ≠ some '-' := by
  obtain ⟨whole, fraction, rfl, hsome, -, hdigits, -⟩ := hpositional
  rw [List.head?_append_of_ne_nil _ hsome]
  intro hsign
  exact absurd (hdigits '-' (List.mem_append_left _ (List.mem_of_head? hsign))) (by decide)

end

/-! ### Respelling -/

/-- Respelling changes what follows the letter. -/
theorem respelled_append {mantissa : List Char} (hmantissa : 'e' ∉ mantissa)
    (exponent : List Char) :
    respelled (mantissa ++ 'e' :: exponent) = mantissa ++ 'e' :: respelledExponent exponent := by
  have hbefore : ∀ character ∈ mantissa, decide (character ≠ 'e') = true := fun character hmem ↦
    decide_eq_true fun hletter ↦ hmantissa (hletter ▸ hmem)
  rw [respelled, List.dropWhile_append_of_pos hbefore, List.takeWhile_append_of_pos hbefore]
  simp

theorem respelled_minus (printed : List Char) :
    respelled ('-' :: printed) = '-' :: respelled printed := by
  rw [respelled, respelled, List.dropWhile_cons_of_pos (by decide),
    List.takeWhile_cons_of_pos (by decide)]
  split
  · rfl
  · have hpoint : '.' ∈ '-' :: printed ↔ '.' ∈ printed := by simp
    simp only [hpoint]
    split <;> rfl

theorem respelledExponent_of_ne {digits : List Char} (hdigits : digits.head? ≠ some '-') :
    respelledExponent digits = '+' :: padded exponentDigits digits := by
  rw [respelledExponent.eq_def]
  split
  · exact absurd rfl hdigits
  · rfl

theorem respelled_positional {decimal : Decimal} {text : List Char}
    (hpositional : IsPositional decimal text) : respelled text = text := by
  have hnone : text.dropWhile (· ≠ 'e') = [] := List.dropWhile_eq_nil_iff.mpr fun character hmem ↦
    decide_eq_true fun hletter ↦ hpositional.not_mem (hletter ▸ hmem)
  obtain ⟨whole, fraction, rfl, -⟩ := hpositional
  rw [respelled, hnone]
  exact if_pos (List.mem_append_right _ List.mem_cons_self)

theorem isExponential_respelled {decimal : Decimal} (hproper : decimal.Proper) :
    IsExponential decimal (respelled (scientific decimal)) := by
  obtain ⟨first, rest, hdigits, -⟩ := hproper.first
  refine ⟨first, rest, _, hdigits, isExponent_padded (decimal.point - 1).natAbs, ?_⟩
  have hmantissa : 'e' ∉ first :: (if rest = [] then [] else '.' :: rest) := fun hletter ↦ by
    have hdigit : 'e' ∈ first :: rest := by
      cases rest with
      | nil => exact hletter
      | cons second rest => simpa using hletter
    exact absurd (hproper.digits 'e' (hdigits ▸ hdigit)) (by decide)
  have hscientific : scientific decimal = first :: (if rest = [] then [] else '.' :: rest) ++
      'e' :: ((if decimal.point - 1 < 0 then ['-'] else []) ++
        Nat.toDigits 10 (decimal.point - 1).natAbs) := by
    rw [scientific, hdigits]
    cases rest with
    | nil => rfl
    | cons second rest => rfl
  have hexponent : respelledExponent ((if decimal.point - 1 < 0 then ['-'] else []) ++
      Nat.toDigits 10 (decimal.point - 1).natAbs) =
      (if decimal.point - 1 < 0 then '-' else '+') ::
        padded exponentDigits (Nat.toDigits 10 (decimal.point - 1).natAbs) := by
    split
    · rfl
    · refine respelledExponent_of_ne fun hsign ↦ ?_
      exact absurd (Nat.isDigit_of_mem_toDigits (by decide) (by decide) (List.mem_of_head? hsign))
        (by decide)
  rw [hscientific, respelled_append hmantissa, hexponent]

/-- The point of a decimal chooses its notation, which is told by the letter. -/
theorem respelled_unsigned {decimal : Decimal} (hproper : decimal.Proper) :
    (respelled (unsigned layout decimal)).head? ≠ some '-' ∧
      ('e' ∈ respelled (unsigned layout decimal) ↔ decimal.point < -4 ∨ 16 < decimal.point) ∧
      ('e' ∈ respelled (unsigned layout decimal) →
        IsExponential decimal (respelled (unsigned layout decimal))) ∧
      ('e' ∉ respelled (unsigned layout decimal) →
        IsPositional decimal (respelled (unsigned layout decimal))) := by
  rw [unsigned]
  split
  · rename_i hbetween
    have hbounds : -4 ≤ decimal.point ∧ decimal.point ≤ 16 := hbetween
    have hpositional := isPositional_positional hproper
    rw [respelled_positional hpositional]
    exact ⟨hpositional.head?_ne, iff_of_false hpositional.not_mem (by omega),
      fun hletter ↦ absurd hletter hpositional.not_mem, fun _ ↦ hpositional⟩
  · rename_i hbeyond
    have hbounds : ¬(-4 ≤ decimal.point ∧ decimal.point ≤ 16) := hbeyond
    have hexponential := isExponential_respelled hproper
    exact ⟨hexponential.head?_ne hproper, iff_of_true hexponential.mem (by omega),
      fun _ ↦ hexponential, fun hnone ↦ absurd hexponential.mem hnone⟩

/-! ### The text of a double -/

section

variable {number : Float} (hfinite : number.isFinite = true) (hnonzero : (number == 0) = false)

include hfinite

theorem text_of_isFinite :
    text number = String.ofList (respelled (ofParts (Binary64.decode number))) := by
  have hordinary : number.isNaN = false ∧ number.isInf = false := by
    change number.toModel.unpack.isFinite = true at hfinite
    change number.toModel.unpack.isNaN = false ∧ number.toModel.unpack.isInf = false
    cases hnumber : number.toModel.unpack with
    | notANumber | infinity => rw [hnumber] at hfinite; cases hfinite
    | zero | finite => exact ⟨rfl, rfl⟩
  rw [text, hordinary.1, hordinary.2]
  rfl

include hnonzero

/-- A finite double other than zero is a sign and its shortest decimal. -/
theorem toList_text : (text number).toList =
    if number < 0 then
      '-' :: respelled (unsigned layout (Shortest.ofParts (Binary64.decode number)))
    else respelled (unsigned layout (Shortest.ofParts (Binary64.decode number))) := by
  rw [text_of_isFinite hfinite, String.toList_ofList, ofParts,
    if_neg (Binary64.significand_pos hnonzero).ne', Binary64.negative_decode]
  simp only [← Binary64.lt_zero_iff hfinite hnonzero]
  split
  · exact respelled_minus _
  · rfl

end

end Metaobject.Number.FloatText
