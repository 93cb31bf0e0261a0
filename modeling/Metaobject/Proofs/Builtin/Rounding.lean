import Metaobject.Proofs.Builtin.Power
import Metaobject.Proofs.Heap.Integers
import Metaobject.Proofs.Number.Nearest

/-!
# The builtin rounding of integers

`round` of an integer or a truth value always gives an integer and makes no request
(`Operation.gives_round`). The decimal places may be any integer: a long one counts as the greatest
or least word, which makes no difference to the result (`Operation.exists_places`). So rounding an
integer is exact for all places (`BuiltinFunction.round_halfEven`).
-/

set_option autoImplicit false
set_option relaxedAutoImplicit false

namespace Metaobject

section

variable {settings : Settings}
  {respond : {Answer : Type} → Request Answer → World → Ending Answer × World}
  {world : World} {number digits : Value} {value amount : Int}

/-! ### Decimal places -/

/-- The places that are taken for an integer round as the integer itself does. -/
theorem Operation.exists_places (hcanonical : digits.Canonical)
    (hdigits : digits.integer? = some amount) (heap : Heap) :
    ∃ taken, places heap digits = .ok (some taken) ∧ ∀ value,
      Number.Rounding.integer value (some taken) = Number.Rounding.integer value (some amount) := by
  cases digits with
  | bool truth | int word =>
    obtain rfl := Option.some.inj hdigits
    exact ⟨_, rfl, fun _ ↦ rfl⟩
  | long wide =>
    obtain rfl : wide = amount := Option.some.inj hdigits
    refine ⟨_, rfl, fun value ↦ ?_⟩
    rcases hcanonical wide (.self _) with hlow | hhigh
    · rw [if_pos (by omega), Number.Rounding.integer_of_le value (by decide),
        Number.Rounding.integer_of_le value (by omega)]
    · rw [if_neg (by omega), Number.Rounding.integer_of_nonneg value (by decide),
        Number.Rounding.integer_of_nonneg value (by omega)]
  | _ => cases hdigits

/-! ### Rounding -/

theorem Operation.gives_round {taken : Option Int} (hnumber : number.integer? = some value)
    (hplaces : places world.heap digits = .ok taken) :
    (round number digits).Gives settings respond world []
      (.ofInt (Number.Rounding.integer value taken)) world := by
  have hisNumber : number.isNumber = true := by
    cases number <;> first | rfl | cases hnumber
  have hnative : nativeRound? number taken =
      some (.ok (.ofInt (Number.Rounding.integer value taken))) := by
    cases number with
    | bool | int | long =>
      obtain rfl := Option.some.inj hnumber
      rfl
    | _ => cases hnumber
  unfold round
  rw [if_pos hisNumber]
  refine (Program.leads_heap _ world).gives ?_
  refine Program.Gives.bind (Program.gives_ofExcept hplaces world)
    (?_ : Program.Gives settings respond _ world [] _ world)
  simp only [hnative]
  exact Program.gives_done _ world

/-- Rounding of an integer or a truth value with fewer than 2 ^ 32 decimal digits. Without places,
with `null` for them and with places that are not negative it gives the integer. For negative places
of any size it gives the multiple of the power of ten that is nearest to the integer, with an even
quotient if two are; no other integer is such a multiple. -/
theorem BuiltinFunction.round_halfEven (settings : Settings)
    (respond : {Answer : Type} → Request Answer → World → Ending Answer × World) (world : World)
    (hnumber : number.integer? = some value)
    (hlength : (Nat.digits 10 value.natAbs).length < 2 ^ 32) :
    let gives := fun (arguments : List Value) (rounded : Int) ↦
      (BuiltinFunction.run .round (.ofList arguments)).Gives settings respond world []
        (.ofInt rounded) world
    gives [number] value ∧ gives [number, .null] value ∧
      ∀ digits amount, digits.integer? = some amount → digits.Canonical →
        (0 ≤ amount → gives [number, digits] value) ∧
        (amount < 0 → ∃ rounded, gives [number, digits] rounded ∧ ∀ candidate,
          (∃ quotient, candidate = quotient * 10 ^ (-amount).toNat ∧
            Number.Rounding.RoundsTo (10 ^ (-amount).toNat) value quotient) ↔
              candidate = rounded) := by
  intro gives
  have hround {digits : Value} {taken : Option Int}
      (hplaces : Operation.places world.heap digits = .ok taken) :
      gives [number, digits] (Number.Rounding.integer value taken) :=
    Operation.gives_round hnumber hplaces
  have hnull : Operation.places world.heap .null = .ok none := rfl
  refine ⟨?_, hround hnull, fun digits amount hdigits hcanonical ↦ ?_⟩
  · have hzero : Operation.places world.heap (.ofNat 0) = .ok (some 0) := rfl
    exact Operation.gives_round hnumber hzero
  · obtain ⟨taken, hplaces, hsame⟩ := Operation.exists_places hcanonical hdigits world.heap
    have hgives := hround hplaces
    rw [hsame] at hgives
    refine ⟨fun hnonneg ↦ ?_, fun hnegative ↦ ⟨_, hgives, fun candidate ↦ ?_⟩⟩
    · rwa [Number.Rounding.integer_of_nonneg value hnonneg] at hgives
    · have hunit : (0 : Int) < 10 ^ (-amount).toNat := by positivity
      obtain ⟨nearest, hrounded, hnearest⟩ := Number.Rounding.roundsTo_integer hnegative hlength
      constructor
      · rintro ⟨quotient, rfl, hquotient⟩
        rw [hrounded, hquotient.unique hunit hnearest]
      · rintro rfl
        exact ⟨nearest, hrounded, hnearest⟩

end

/-! ### Ties and as many places as digits -/

/-- Ties go to the even multiple on both sides of zero. With as many places as digits something can
be left, and a long integer of places after the point leaves everything. -/
theorem BuiltinFunction.round_halfEven_ties :
    let gives := fun (arguments : List Value) (rounded : Int) ↦
      (BuiltinFunction.run .round (.ofList arguments)).Gives .scripted
        (Request.answer .scripted 0) .blank [] (.ofInt rounded) .blank
    gives [.ofInt 25, .ofInt (-1)] 20 ∧ gives [.ofInt (-35), .ofInt (-1)] (-40) ∧
      gives [.ofInt 95, .ofInt (-2)] 100 ∧ gives [.ofInt 95, .ofInt (2 ^ 64)] 95 := by
  intro gives
  have hlong (value : Int) : (Value.ofInt value).Canonical :=
    (Heap.empty.holds_ofInt value).canonical
  have hrounds (value places quotient : Int)
      (hlength : (Nat.digits 10 value.natAbs).length < 2 ^ 32) (hplaces : places < 0)
      (hquotient : Number.Rounding.RoundsTo (10 ^ (-places).toNat) value quotient) :
      gives [.ofInt value, .ofInt places] (quotient * 10 ^ (-places).toNat) := by
    obtain ⟨-, -, hdigits⟩ := BuiltinFunction.round_halfEven .scripted
      (Request.answer .scripted 0) .blank (Value.integer?_ofInt value) hlength
    obtain ⟨rounded, hgives, hunique⟩ :=
      (hdigits _ _ (Value.integer?_ofInt places) (hlong places)).2 hplaces
    exact (hunique _).mp ⟨quotient, rfl, hquotient⟩ ▸ hgives
  refine ⟨?_, ?_, ?_, ?_⟩
  · exact hrounds 25 (-1) 2 (by simp) (by decide) (.of_error (by decide) (by decide) (by decide))
  · exact hrounds (-35) (-1) (-4) (by simp) (by decide)
      (.of_error (by decide) (by decide) (by decide))
  · exact hrounds 95 (-2) 1 (by simp) (by decide) (.of_error (by decide) (by decide) (by decide))
  · obtain ⟨-, -, hdigits⟩ := BuiltinFunction.round_halfEven .scripted
      (Request.answer .scripted 0) .blank (Value.integer?_ofInt 95) (by simp)
    exact (hdigits _ _ (Value.integer?_ofInt (2 ^ 64)) (hlong (2 ^ 64))).1 (by decide)

end Metaobject
