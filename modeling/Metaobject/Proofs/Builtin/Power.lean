import Metaobject.Proofs.Builtin.Reports
import Metaobject.Proofs.Number.Power

/-!
# The builtin power

`pow` of two integers, the second not negative, gives their power unless it would be too large
(`Operation.eq_of_run_powerOfIntegers`); what counts as too large is said exactly
(`BuiltinFunction.pow_bounded`). With a third integer it gives the power modulo that integer
(`BuiltinFunction.pow_modular`): it makes no request, always ends, and fails only for a modulus of
zero and for a negative power of a base that has no inverse.
-/

set_option autoImplicit false
set_option relaxedAutoImplicit false

namespace Metaobject

section

variable {settings : Settings}
  {respond : {Answer : Type} → Request Answer → World → Ending Answer × World}
  {world final : World} {base exponent modulus : Value} {first second third : Int}

/-! ### Two operands -/

theorem Program.gives_permitBits {bits : Nat} (hbits : bits ≤ settings.limits.maxIntegerBits)
    (world : World) :
    (Program.effect (.permitBits bits)).Gives settings respond world [] () world :=
  gives_effect (if_neg (not_lt.mpr hbits))

theorem Program.stops_permitBits {bits : Nat} (hbits : settings.limits.maxIntegerBits < bits)
    (world : World) :
    (Program.effect (.permitBits bits)).Stops settings respond world [] (.raised .powerTooLarge)
      world :=
  stops_effect (if_pos hbits)

/-- A power of integers that is computed at all is exact. -/
theorem Operation.eq_of_run_powerOfIntegers {result : Value} (hexponent : 0 ≤ second)
    (hrun : (powerOfIntegers first second).run settings respond world = (.value result, final)) :
    result = .ofInt (first ^ second.toNat) := by
  unfold powerOfIntegers at hrun
  rw [if_neg (not_lt.mpr hexponent)] at hrun
  split at hrun
  · rename_i hsmall
    rw [Number.Power.smallPower_eq_pow hsmall] at hrun
    cases hrun
    rfl
  · split at hrun
    · cases hrun
    · rw [Number.Power.integer_eq_pow] at hrun
      obtain ⟨permitted, between, -, hresult⟩ := Program.exists_of_run_bind hrun
      cases hresult
      rfl

/-- A power of integers that is not refused is computed. -/
theorem Operation.powerOfIntegers_gives (hsecond : 0 ≤ second)
    (hlimit : settings.limits.maxIntegerBits < 2 ^ 64 - 1)
    (hwithin : ¬Number.Power.Exceeds settings.limits.maxIntegerBits first second.toNat)
    (world : World) :
    (powerOfIntegers first second).Gives settings respond world []
      (.ofInt (first ^ second.toNat)) world := by
  unfold powerOfIntegers
  rw [if_neg (not_lt.mpr hsecond)]
  by_cases hsmall : Number.Power.isSmallBase first
  · rw [if_pos hsmall, Number.Power.smallPower_eq_pow hsmall]
    exact Program.gives_done _ world
  · have hbase : 2 ≤ first.natAbs :=
      not_lt.mp fun hbase ↦ hsmall ((Number.Power.isSmallBase_iff first).mpr hbase)
    have hexponent : ¬Number.Power.exponentLimit ≤ second.toNat := fun hexponent ↦
      hwithin ⟨hbase, Or.inl hexponent⟩
    have hbits : Number.Power.sizeBound first second.toNat ≤ settings.limits.maxIntegerBits :=
      not_lt.mp fun hbits ↦ hwithin
        ⟨hbase, Or.inr ((Number.Power.lt_sizeBound_iff hlimit first second.toNat).mp hbits)⟩
    rw [if_neg hsmall, if_neg hexponent, Number.Power.integer_eq_pow]
    exact (Program.gives_permitBits hbits world).bind (Program.gives_done _ world)

/-- A power of integers that is refused raises the exception for its size. -/
theorem Operation.powerOfIntegers_stops (hsecond : 0 ≤ second)
    (hlimit : settings.limits.maxIntegerBits < 2 ^ 64 - 1)
    (hexceeds : Number.Power.Exceeds settings.limits.maxIntegerBits first second.toNat)
    (world : World) :
    (powerOfIntegers first second).Stops settings respond world [] (.raised .powerTooLarge)
      world := by
  obtain ⟨hbase, hsize⟩ := hexceeds
  have hsmall : ¬Number.Power.isSmallBase first := by
    rw [Number.Power.isSmallBase_iff]
    exact not_lt.mpr hbase
  unfold powerOfIntegers
  rw [if_neg (not_lt.mpr hsecond), if_neg hsmall]
  by_cases hexponent : Number.Power.exponentLimit ≤ second.toNat
  · rw [if_pos hexponent]
    exact Program.stops_raise _ world
  · rw [if_neg hexponent]
    have hproduct := hsize.resolve_left hexponent
    exact (Program.stops_permitBits
      ((Number.Power.lt_sizeBound_iff hlimit first second.toNat).mpr hproduct) world).bind _

theorem BuiltinFunction.run_pow_two (hbase : base.integer? = some first)
    (hexponent : exponent.integer? = some second) :
    BuiltinFunction.run .pow (.ofList [base, exponent]) =
      Operation.powerOfIntegers first second := by
  show Operation.power base exponent none = _
  simp only [Operation.power, Operation.nativePower?, hbase, hexponent, Option.getD_some]

/-- Powers of two integers, for all integers and truth values and for every exponent that is not
negative. A power is either computed exactly or refused with a `MemoryError`. It is refused if and
only if the base is two or more in magnitude and the exponent has more than thirty-two bits or is,
times the number of bits of the base, above the limit; what is computed keeps to the limit unless it
is zero or a unit. To the bases zero, one and minus one every exponent is admitted. -/
theorem BuiltinFunction.pow_bounded (settings : Settings)
    (respond : {Answer : Type} → Request Answer → World → Ending Answer × World) (world : World)
    (hbase : base.integer? = some first) (hexponent : exponent.integer? = some second)
    (hsecond : 0 ≤ second) (hlimit : settings.limits.maxIntegerBits < 2 ^ 64 - 1) :
    let program := BuiltinFunction.run .pow (.ofList [base, exponent])
    let raisesMemoryError := ∃ exception : Exception, exception.cls = .memoryError ∧
      program.Stops settings respond world [] (.raised exception) world
    let givesInteger := fun integer : Int ↦
      program.Gives settings respond world [] (.ofInt integer) world
    (raisesMemoryError ∨ givesInteger (first ^ second.toNat)) ∧
      (raisesMemoryError ↔ 2 ≤ first.natAbs ∧ (2 ^ 32 ≤ second ∨
        settings.limits.maxIntegerBits < first.natAbs.size * second.toNat)) ∧
      (∀ result final, program.run settings respond world = (.value result, final) →
        ∃ power, power = first ^ second.toNat ∧ result = .ofInt power ∧ final = world ∧
          (power ≠ 0 → power ≠ 1 → power ≠ -1 →
            power.natAbs.size ≤ settings.limits.maxIntegerBits)) ∧
      (first = 0 → givesInteger (if second = 0 then 1 else 0)) ∧
      (first = 1 → givesInteger 1) ∧
      (first = -1 → givesInteger (if Even second then 1 else -1)) := by
  intro program raisesMemoryError givesInteger
  have hprogram : program = Operation.powerOfIntegers first second := run_pow_two hbase hexponent
  set exceeds := Number.Power.Exceeds settings.limits.maxIntegerBits first second.toNat with hset
  have hgives : ¬exceeds → givesInteger (first ^ second.toNat) := fun hwithin ↦
    show program.Gives _ _ _ _ _ _ from hprogram ▸
      Operation.powerOfIntegers_gives hsecond hlimit hwithin world
  have hraises : exceeds → raisesMemoryError := fun hexceeds ↦
    ⟨_, rfl, hprogram ▸ Operation.powerOfIntegers_stops hsecond hlimit hexceeds world⟩
  have hdistinct : raisesMemoryError → ¬givesInteger (first ^ second.toNat) := by
    rintro ⟨exception, -, hstops⟩ hpower
    cases hstops.run.symm.trans hpower.run
  have hiff : raisesMemoryError ↔ exceeds :=
    ⟨fun hraised ↦ not_not.mp fun hwithin ↦ hdistinct hraised (hgives hwithin), hraises⟩
  have hsmall : first.natAbs < 2 → givesInteger (first ^ second.toNat) := fun hbase ↦
    hgives fun hexceeds ↦ absurd hexceeds.1 (not_le.mpr hbase)
  refine ⟨(em exceeds).imp hraises hgives, ?_, fun result final hrun ↦ ?_, ?_, ?_, ?_⟩
  · rw [hiff, hset, Number.Power.Exceeds, Int.le_toNat hsecond]
    exact Iff.rfl
  · have hwithin : ¬exceeds := fun hexceeds ↦ by
      obtain ⟨exception, -, hstops⟩ := hraises hexceeds
      cases hstops.run.symm.trans hrun
    have hpower := hgives hwithin
    obtain ⟨hresult, rfl⟩ := Prod.mk.inj (hrun.symm.trans hpower.run)
    refine ⟨_, rfl, Ending.value.inj hresult, rfl, fun hzero hone hminus ↦ ?_⟩
    exact Number.Power.size_le_of_not_exceeds hwithin (by omega)
  · rintro rfl
    have hpower : (0 : Int) ^ second.toNat = if second = 0 then 1 else 0 := by
      have hexponent : second.toNat = 0 ↔ second = 0 := by omega
      simp only [zero_pow_eq, hexponent]
    exact hpower ▸ hsmall (by decide)
  · rintro rfl
    exact one_pow (M := Int) second.toNat ▸ hsmall (by decide)
  · rintro rfl
    have hpower : (-1 : Int) ^ second.toNat = if Even second then 1 else -1 := by
      have hexponent : Even second.toNat ↔ Even second := by
        rw [← Int.even_coe_nat, Int.toNat_of_nonneg hsecond]
      simp only [neg_one_pow_eq_ite, hexponent]
    exact hpower ▸ hsmall (by decide)

/-! ### Three operands -/

theorem BuiltinFunction.run_pow_three (hbase : base.integer? = some first)
    (hexponent : exponent.integer? = some second) (hmodulus : modulus.integer? = some third) :
    BuiltinFunction.run .pow (.ofList [base, exponent, modulus]) =
      .ofExcept ((Number.Power.modular first second third).map .ofInt) := by
  have hpower : BuiltinFunction.run .pow (.ofList [base, exponent, modulus]) =
      Operation.power base exponent (some modulus) := by
    cases modulus with
    | null => cases hmodulus
    | _ => rfl
  rw [hpower]
  simp only [Operation.power, Operation.nativeModularPower?, hbase, hexponent, hmodulus,
    Option.getD_some]

/-- Powers modulo an integer, for all integers and truth values. A modulus of zero is a value error.
For every other modulus and an exponent that is not negative the result is the one remainder of the
modulus that is congruent to the power. For a negative exponent there is a result exactly if the
base is coprime to the modulus: the one remainder whose product with the opposite power is congruent
to one; otherwise it is a value error. Whenever the power of the first two operands alone succeeds,
the result is the floor remainder of that power. -/
theorem BuiltinFunction.pow_modular (settings : Settings)
    (respond : {Answer : Type} → Request Answer → World → Ending Answer × World) (world : World)
    (hbase : base.integer? = some first) (hexponent : exponent.integer? = some second)
    (hmodulus : modulus.integer? = some third) :
    let program := BuiltinFunction.run .pow (.ofList [base, exponent, modulus])
    let raisesValueError := ∃ exception : Exception, exception.cls = .valueError ∧
      program.Stops settings respond world [] (.raised exception) world
    (third = 0 → raisesValueError) ∧
      (third ≠ 0 → 0 ≤ second → ∃ power,
        program.Gives settings respond world [] (.ofInt power) world ∧
          ∀ remainder, Number.Power.IsRemainder third remainder ∧
            remainder ≡ first ^ second.toNat [ZMOD third] ↔ remainder = power) ∧
      (third ≠ 0 → second < 0 →
        (Int.gcd first third = 1 → ∃ power,
          program.Gives settings respond world [] (.ofInt power) world ∧
            ∀ remainder, Number.Power.IsRemainder third remainder ∧
              remainder * first ^ (-second).toNat ≡ 1 [ZMOD third] ↔ remainder = power) ∧
        (Int.gcd first third ≠ 1 → raisesValueError)) ∧
      ∀ result final, third ≠ 0 → 0 ≤ second →
        (BuiltinFunction.run .pow (.ofList [base, exponent])).run settings respond world =
          (.value result, final) →
        ∃ power, result = .ofInt power ∧
          program.Gives settings respond world [] (.ofInt (Int.fmod power third)) world := by
  intro program raisesValueError
  have hprogram : program = .ofExcept ((Number.Power.modular first second third).map .ofInt) :=
    run_pow_three hbase hexponent hmodulus
  have hgives : ∀ power, Number.Power.modular first second third = .ok power →
      program.Gives settings respond world [] (.ofInt power) world := by
    intro power hpower
    rw [hprogram]
    exact Program.gives_ofExcept (by rw [hpower]; rfl) world
  have hstops : ∀ exception, Number.Power.modular first second third = .error exception →
      program.Stops settings respond world [] (.raised exception) world := by
    intro exception hfault
    rw [hprogram]
    exact Program.stops_ofExcept (by rw [hfault]; rfl) world
  have hnatural : third ≠ 0 → 0 ≤ second → program.Gives settings respond world []
      (.ofInt (Int.fmod (first ^ second.toNat) third)) world := fun hthird hsecond ↦
    hgives _ (Number.Power.modular_eq_fmod hthird hsecond)
  refine ⟨fun hthird ↦ ⟨_, rfl, hstops _ (if_pos hthird)⟩, fun hthird hsecond ↦
    ⟨_, hnatural hthird hsecond, Number.Power.isRemainder_and_modEq_iff hthird _⟩,
    fun hthird hsecond ↦ ⟨fun hcoprime ↦ ?_, fun hshared ↦ ⟨_, rfl,
      hstops _ (Number.Power.modular_of_not_coprime hthird hsecond hshared)⟩⟩,
    fun result final hthird hsecond hrun ↦ ?_⟩
  · obtain ⟨power, hpower, hunique⟩ :=
      Number.Power.modular_of_coprime hthird hsecond hcoprime
    exact ⟨power, hgives power hpower, hunique⟩
  · rw [run_pow_two hbase hexponent] at hrun
    exact ⟨_, Operation.eq_of_run_powerOfIntegers hsecond hrun, hnatural hthird hsecond⟩

end

/-! ### A modulus below zero -/

namespace ModularPower

/-- The power of two integers modulo a third. -/
def power (base exponent modulus : Int) : Program Value :=
  BuiltinFunction.run .pow (.ofList [.ofInt base, .ofInt exponent, .ofInt modulus])

end ModularPower

/-- The inverse square of three modulo seven, on the negative side of zero. Two has no inverse
modulo four. -/
theorem BuiltinFunction.pow_modular_inverse :
    (ModularPower.power 3 (-2) (-7)).Gives .scripted (Request.answer .scripted 0) .blank []
        (.ofInt (-3)) .blank ∧
      ∃ exception : Exception, exception.cls = .valueError ∧
        (ModularPower.power 2 (-1) 4).Stops .scripted (Request.answer .scripted 0) .blank []
          (.raised exception) .blank := by
  have hinteger : ∀ value ∈ [3, -2, -7, 2, -1, 4], (Value.ofInt value).integer? = some value := by
    decide
  obtain ⟨-, -, hinverse, -⟩ := BuiltinFunction.pow_modular .scripted
    (Request.answer .scripted 0) .blank (hinteger 3 (by decide)) (hinteger (-2) (by decide))
    (hinteger (-7) (by decide))
  obtain ⟨-, -, hshared, -⟩ := BuiltinFunction.pow_modular .scripted
    (Request.answer .scripted 0) .blank (hinteger 2 (by decide)) (hinteger (-1) (by decide))
    (hinteger 4 (by decide))
  obtain ⟨power, hgives, hunique⟩ := (hinverse (by decide) (by decide)).1 (by decide)
  have hpower : -3 = power := (hunique (-3)).mp ⟨⟨by decide, by decide⟩, by decide⟩
  exact ⟨hpower ▸ hgives, (hshared (by decide) (by decide)).2 (by decide)⟩

/-! ### A power at the limit -/

/-- With at most six bits the third power of minus two is computed, and the fourth is refused though
it has only five. -/
theorem BuiltinFunction.pow_bounded_limit :
    let settings : Settings := { Settings.scripted with limits := ⟨1000, 6⟩ }
    (BuiltinFunction.run .pow (.ofList [.ofInt (-2), .ofInt 3])).Gives settings
        (Request.answer .scripted 0) .blank [] (.ofInt (-8)) .blank ∧
      ∃ exception : Exception, exception.cls = .memoryError ∧
        (BuiltinFunction.run .pow (.ofList [.ofInt (-2), .ofInt 4])).Stops settings
          (Request.answer .scripted 0) .blank [] (.raised exception) .blank := by
  intro settings
  have hinteger : ∀ value ∈ [-2, 3, 4], (Value.ofInt value).integer? = some value := by decide
  obtain ⟨hcomputed, hrefused, -⟩ := BuiltinFunction.pow_bounded settings
    (Request.answer .scripted 0) .blank (hinteger (-2) (by decide)) (hinteger 3 (by decide))
    (by decide) (by decide)
  obtain ⟨-, hfourth, -⟩ := BuiltinFunction.pow_bounded settings
    (Request.answer .scripted 0) .blank (hinteger (-2) (by decide)) (hinteger 4 (by decide))
    (by decide) (by decide)
  refine ⟨hcomputed.resolve_left fun hraises ↦ ?_, hfourth.mpr ⟨by decide, Or.inr ?_⟩⟩
  · obtain ⟨-, hlarge | hlarge⟩ := hrefused.mp hraises
    · exact absurd hlarge (by decide)
    · exact absurd hlarge (by decide)
  · decide

end Metaobject
