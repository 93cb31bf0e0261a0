import Mathlib.Data.List.TakeWhile
import Metaobject.Operation.Number
import Metaobject.Proofs.Run.Obedience

/-!
# Rounding gives numbers

The conversions in which rounding could end with an internal error always succeed. A double that is
a number and not infinite has a nearest integer (`isSome_nearestInt?`), and the text that a double
is written as is a decimal numeral: a sign perhaps, digits, and perhaps a point with more digits
(`isSome_floatOf?_fixed`). So rounding ends with a number or with an exception
(`Operation.regular_nativeRound`).
-/

set_option autoImplicit false
set_option relaxedAutoImplicit false

namespace Metaobject

namespace Number

/-! ### Numerals -/

namespace Numeral

/-- Whether all characters are decimal digits. -/
def AllDigits (text : List Char) : Prop := ∀ character ∈ text, character.isDigit = true

theorem AllDigits.takeWhile_eq {digits : List Char} (hdigits : AllDigits digits) :
    digits.takeWhile Char.isDigit = digits :=
  List.takeWhile_eq_self_iff.mpr hdigits

theorem AllDigits.dropWhile_eq {digits : List Char} (hdigits : AllDigits digits) :
    digits.dropWhile Char.isDigit = [] :=
  List.dropWhile_eq_nil_iff.mpr hdigits

/-- Digits are an unsigned numeral. -/
theorem isSome_decimal?_digits (negative : Bool) {digits : List Char} (hdigits : AllDigits digits)
    (hnonempty : digits ≠ []) : (decimal? negative digits).isSome = true := by
  have hempty : digits.isEmpty = false := by rwa [List.isEmpty_eq_false_iff]
  simp [decimal?, hdigits.takeWhile_eq, hdigits.dropWhile_eq, fraction, exponent?, hempty]

/-- Digits, a point and digits are an unsigned numeral. -/
theorem isSome_decimal?_point (negative : Bool) {whole digits : List Char}
    (hwhole : AllDigits whole) (hnonempty : whole ≠ []) (hdigits : AllDigits digits) :
    (decimal? negative (whole ++ '.' :: digits)).isSome = true := by
  have hempty : whole.isEmpty = false := by rwa [List.isEmpty_eq_false_iff]
  have htake : (whole ++ '.' :: digits).takeWhile Char.isDigit = whole := by
    rw [List.takeWhile_append_of_pos hwhole, List.takeWhile_cons_of_neg (by decide),
      List.append_nil]
  have hdrop : (whole ++ '.' :: digits).dropWhile Char.isDigit = '.' :: digits := by
    rw [List.dropWhile_append_of_pos hwhole, List.dropWhile_cons_of_neg (by decide)]
  simp [decimal?, htake, hdrop, fraction, hdigits.takeWhile_eq, hdigits.dropWhile_eq, exponent?,
    hempty]

theorem isSome_unsigned? {negative : Bool} {text : List Char}
    (hdecimal : (decimal? negative text).isSome = true) :
    (unsigned? negative text).isSome = true := by
  obtain ⟨number, hnumber⟩ := Option.isSome_iff_exists.mp hdecimal
  simp [unsigned?, hnumber]

/-- A text that begins with a digit has no sign. -/
theorem floatOf?_of_digit {digit : Char} (hdigit : digit.isDigit = true) (rest : List Char) :
    floatOf? (digit :: rest) = unsigned? false (digit :: rest) := by
  unfold floatOf?
  split
  · rename_i heq
    obtain ⟨rfl, -⟩ := List.cons.inj heq
    exact absurd hdigit (by decide)
  · rename_i heq
    obtain ⟨rfl, -⟩ := List.cons.inj heq
    exact absurd hdigit (by decide)
  · rfl

end Numeral

/-! ### Conversions -/

namespace Rounding

theorem isSome_nearestInt? {number : Float} (hnan : number.isNaN = false)
    (hinf : number.isInf = false) : (nearestInt? number).isSome = true := by
  have hfinite : number.isFinite = true := by
    unfold Float.isNaN Float.Model.isNaN at hnan
    unfold Float.isInf Float.Model.isInf at hinf
    unfold Float.isFinite Float.Model.isFinite
    generalize number.toModel.unpack = unpacked at hnan hinf ⊢
    cases unpacked with
    | notANumber => cases hnan
    | infinity => cases hinf
    | _ => rfl
  rw [nearestInt?, if_pos hfinite, Option.isSome_some]

theorem allDigits_padded (value places : Nat) : Numeral.AllDigits (padded value places) := by
  intro character hcharacter
  obtain hzero | hdigit := List.mem_append.mp hcharacter
  · rw [List.eq_of_mem_replicate hzero]
    decide
  · exact Nat.isDigit_of_mem_toDigits (by omega) (by omega) hdigit

theorem lt_length_padded (value places : Nat) : places < (padded value places).length := by
  simp only [padded, List.length_append, List.length_replicate]
  omega

/-- A number with decimal places is written with a digit before the point, and as a numeral. -/
theorem withPoint_numeral (value places : Nat) :
    (∃ digit rest, digit.isDigit = true ∧ withPoint value places = digit :: rest) ∧
      ∀ negative, (Numeral.decimal? negative (withPoint value places)).isSome = true := by
  have hdigits := allDigits_padded value places
  have hlength := lt_length_padded value places
  unfold withPoint
  generalize padded value places = digits at hdigits hlength
  have hwhole : Numeral.AllDigits (digits.take (digits.length - places)) :=
    fun character hcharacter ↦ hdigits character (List.mem_of_mem_take hcharacter)
  have hrest : Numeral.AllDigits (digits.drop (digits.length - places)) :=
    fun character hcharacter ↦ hdigits character (List.mem_of_mem_drop hcharacter)
  have hnonempty : digits.take (digits.length - places) ≠ [] := by
    rw [← List.length_pos_iff, List.length_take]
    omega
  obtain ⟨digit, others, hcons⟩ := List.exists_cons_of_ne_nil hnonempty
  have hdigit : digit.isDigit = true := hwhole digit (hcons ▸ List.mem_cons_self)
  dsimp only
  split
  · exact ⟨⟨digit, others, hdigit, hcons⟩,
      fun negative ↦ Numeral.isSome_decimal?_digits negative hwhole hnonempty⟩
  · exact ⟨⟨digit, others ++ _, hdigit, congrArg (· ++ _) hcons⟩,
      fun negative ↦ Numeral.isSome_decimal?_point negative hwhole hnonempty hrest⟩

/-- A double is written as a numeral. -/
theorem isSome_floatOf?_fixed (number : Float) (places : Nat) :
    (Numeral.floatOf? (fixed number places)).isSome = true := by
  unfold fixed
  dsimp only
  obtain ⟨⟨digit, rest, hdigit, hwritten⟩, hdecimal⟩ := withPoint_numeral
    (Binary64.roundHalfEven ((Binary64.decode number).ratio.1 * Nat.pow 10 places)
      (Binary64.decode number).ratio.2) places
  split
  · exact Numeral.isSome_unsigned? (hdecimal true)
  · rw [hwritten, Numeral.floatOf?_of_digit hdigit, ← hwritten]
    exact Numeral.isSome_unsigned? (hdecimal false)

theorem regular_toInteger (number : Float) : Regular (toInteger number) := by
  intro message hmessage
  unfold toInteger at hmessage
  split at hmessage
  · cases hmessage
  · rename_i hnan
    split at hmessage
    · cases hmessage
    · rename_i hinf
      have hsome := isSome_nearestInt? (Bool.eq_false_iff.mpr hnan) (Bool.eq_false_iff.mpr hinf)
      split at hmessage
      · cases hmessage
      · rename_i hnone
        rw [hnone] at hsome
        cases hsome

theorem exists_toPlaces (number : Float) (places : Nat) :
    ∃ rounded, toPlaces number places = .ok rounded := by
  obtain ⟨rounded, hrounded⟩ := Option.isSome_iff_exists.mp (isSome_floatOf?_fixed number places)
  exact ⟨rounded, by rw [toPlaces, hrounded]⟩

theorem regular_double (number : Float) (places : Int) : Regular (double number places) := by
  intro message hmessage
  unfold double at hmessage
  split at hmessage
  · cases hmessage
  · split at hmessage
    · cases hmessage
    · have hchecked : ∀ rounded : Float, (if rounded.isInf then
          .error (.raised (.overflow "rounded value too large to represent"))
          else .ok rounded : Except Failure Float) ≠ .error (.internal message) := by
        intro rounded
        split <;> simp
      split at hmessage
      · obtain ⟨rounded, hrounded⟩ := exists_toPlaces number places.toNat
        rw [hrounded] at hmessage
        exact hchecked rounded hmessage
      · exact hchecked _ hmessage

end Rounding

end Number

theorem Operation.regular_nativeRound {number : Value} {places : Option Int}
    {outcome : Except Failure Value} (houtcome : nativeRound? number places = some outcome) :
    Regular outcome := by
  unfold nativeRound? at houtcome
  split at houtcome
  · rw [← Option.some.inj houtcome]
    exact (Number.Rounding.regular_toInteger _).map _
  · rw [← Option.some.inj houtcome]
    exact (Number.Rounding.regular_double _ _).map _
  · obtain ⟨integer, -, rfl⟩ := Option.map_eq_some_iff.mp houtcome
    exact fun _ hmessage ↦ nomatch hmessage

end Metaobject
