import Metaobject.Proofs.Number.FloatText
import Metaobject.Value.Written

/-!
# Written doubles

A finite double other than zero is written with its shortest decimal, after a minus sign if it is
negative (`float_spelling`). The least decimals in positional notation are those with the point at
-4: `1e-5` is written with four zeros after the point and without an exponent
(`written_hundredThousandth`).
-/

set_option autoImplicit false
set_option relaxedAutoImplicit false

namespace Metaobject.Heap

open Number Number.Shortest Number.FloatText

theorem written_float (heap : Heap) (number : Float) :
    heap.written (.float number) = FloatText.text number := by
  rw [written]
  cases heap.size <;> rfl

/-- A finite double other than zero has one shortest decimal, and is written as that decimal after a
minus sign if it is negative. A decimal `0.d₁…dₙ * 10 ^ p` is written with an exponent if `p` is
less than -4 or greater than 16, and in positional notation otherwise. -/
theorem float_spelling (heap : Heap) {number : Float} (hfinite : number.isFinite = true)
    (hnonzero : (number == 0) = false) :
    (∃! decimal, IsShortest number decimal) ∧
      ∀ decimal, IsShortest number decimal → ∃ magnitude,
        (heap.written (.float number)).toList =
          (if number < 0 then '-' :: magnitude else magnitude) ∧
        magnitude.head? ≠ some '-' ∧
        ('e' ∈ magnitude ↔ decimal.point < -4 ∨ 16 < decimal.point) ∧
        ('e' ∈ magnitude → IsExponential decimal magnitude) ∧
        ('e' ∉ magnitude → IsPositional decimal magnitude) := by
  refine ⟨⟨_, isShortest_ofParts hfinite hnonzero, fun other hother ↦
    hother.eq_ofParts hfinite hnonzero⟩, fun decimal hshortest ↦ ?_⟩
  obtain rfl := hshortest.eq_ofParts hfinite hnonzero
  refine ⟨_, ?_, respelled_unsigned hshortest.proper⟩
  rw [written_float]
  exact toList_text hfinite hnonzero

/-! ### A small double and a smaller one -/

/-- The double that `-1.5e-7` is read as. -/
def smallNegative : Float := Numeral.nearestDecimal true 15 (-8)

theorem isShortest_smallNegative : IsShortest smallNegative ⟨['1', '5'], -6⟩ := by
  have hdigits : Shortest.ofParts (Binary64.decode smallNegative) = ⟨['1', '5'], -6⟩ := by
    decide +kernel
  exact hdigits ▸ isShortest_ofParts (by decide +kernel) (by decide +kernel)

/-- The double is written with a minus sign and an exponent. -/
theorem float_spelling_smallNegative :
    smallNegative.isFinite = true ∧ (smallNegative == 0) = false ∧
      IsShortest smallNegative ⟨['1', '5'], -6⟩ ∧ ∃ magnitude,
        (written ⟨#[]⟩ (.float smallNegative)).toList = '-' :: magnitude ∧
        IsExponential ⟨['1', '5'], -6⟩ magnitude := by
  have hfinite : smallNegative.isFinite = true := by decide +kernel
  have hnonzero : (smallNegative == 0) = false := by decide +kernel
  have hnegative : smallNegative < 0 := by decide +kernel
  obtain ⟨magnitude, hwritten, -, hletter, hexponential, -⟩ :=
    (float_spelling ⟨#[]⟩ hfinite hnonzero).2 _ isShortest_smallNegative
  rw [if_pos hnegative] at hwritten
  exact ⟨hfinite, hnonzero, isShortest_smallNegative, magnitude, hwritten,
    hexponential (hletter.mpr (by decide))⟩

/-- The double that `1e-5` is read as. -/
def hundredThousandth : Float := Numeral.nearestDecimal false 1 (-5)

/-- The point of the shortest decimal is -4, and the double is written without an exponent. -/
theorem written_hundredThousandth :
    hundredThousandth.isFinite = true ∧ (hundredThousandth == 0) = false ∧
      IsShortest hundredThousandth ⟨['1'], -4⟩ ∧
      written ⟨#[]⟩ (.float hundredThousandth) = "0.00001" ∧
      ¬('e' ∈ (written ⟨#[]⟩ (.float hundredThousandth)).toList ↔
        (-4 : Int) ≤ -4 ∨ 16 < (-4 : Int)) := by
  have hfinite : hundredThousandth.isFinite = true := by decide +kernel
  have hnonzero : (hundredThousandth == 0) = false := by decide +kernel
  have hdigits : Shortest.ofParts (Binary64.decode hundredThousandth) = ⟨['1'], -4⟩ := by
    decide +kernel
  have hwritten : written ⟨#[]⟩ (.float hundredThousandth) = "0.00001" := by decide +kernel
  refine ⟨hfinite, hnonzero, hdigits ▸ isShortest_ofParts hfinite hnonzero, hwritten, ?_⟩
  rw [hwritten]
  decide

end Metaobject.Heap
