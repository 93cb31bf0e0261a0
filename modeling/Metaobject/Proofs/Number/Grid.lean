import Metaobject.Number.Shortest
import Metaobject.Proofs.Number.Reading

/-!
# Grids

The search for the shortest decimal, in terms of rational numbers. Its integers are the ends of the
rounding interval and the double itself in a common unit (`Interval.Describes`). On the grid of the
multiples of a power of ten the search looks at the two places next to the double
(`onGrid?_cases`): if there is no hit then no place of the grid is read as the double
(`not_fits_of_onGrid?`), and a hit is the nearest place that is (`isNearest_of_onGrid?`). A double
lies between two powers of ten that are found from its bits (`between_decimalPoint`), and seventeen
digits from there are enough (`exists_fits`), so the search ends on the first grid with a hit
(`search_spec`).
-/

set_option autoImplicit false
set_option relaxedAutoImplicit false

namespace Metaobject.Number

open Binary64 (Parts)

/-! ### Magnitudes -/

/-- The magnitude of a finite double. -/
def Binary64.Parts.magnitude (parts : Parts) : ℚ :=
  parts.significand * 2 ^ parts.exponent

theorem Binary64.Parts.covers_magnitude (parts : Parts) : parts.Covers parts.magnitude := by
  rw [magnitude, covers_iff]
  exact .of_lt (by linarith [parts.margin_pos]) (by linarith)

namespace Shortest

/-! ### Intervals in a common unit -/

/-- Whether the integers of an interval are the ends of the rounding interval of a double and the
double, counted in a unit. -/
structure Interval.Describes (interval : Interval) (parts : Parts) (unit : ℚ) : Prop where
  unit_pos : 0 < unit
  lower : (interval.lower : ℚ) =
    (parts.significand - parts.margin) * 2 ^ parts.exponent * unit
  value : (interval.value : ℚ) = parts.magnitude * unit
  upper : (interval.upper : ℚ) = (parts.significand + 1 / 2) * 2 ^ parts.exponent * unit
  closed : interval.closed = true ↔ Even parts.significand

/-- A power with an integer exponent as a quotient of natural numbers. -/
theorem cast_power {base : Nat} (hbase : 0 < base) (exponent : Int) :
    0 < (if 0 ≤ exponent then 1 else Nat.pow base (-exponent).toNat) ∧
      ((if 0 ≤ exponent then Nat.pow base exponent.toNat else 1 : Nat) : ℚ) =
        base ^ exponent * (if 0 ≤ exponent then 1 else Nat.pow base (-exponent).toNat : Nat) := by
  split
  · rename_i hexponent
    obtain ⟨power, rfl⟩ := Int.eq_ofNat_of_zero_le hexponent
    refine ⟨one_pos, ?_⟩
    rw [Nat.pow_eq, Int.toNat_natCast, zpow_natCast, Nat.cast_pow, Nat.cast_one, mul_one]
  · rename_i hexponent
    obtain ⟨power, rfl⟩ : ∃ power : Nat, exponent = -power := ⟨(-exponent).toNat, by omega⟩
    refine ⟨Nat.pow_pos hbase, ?_⟩
    rw [Nat.pow_eq, neg_neg, Int.toNat_natCast, zpow_neg, zpow_natCast, Nat.cast_pow, Nat.cast_one,
      inv_mul_cancel₀ (by positivity)]

theorem Interval.describes_of {parts : Parts} (hpositive : 0 < parts.significand) :
    (Interval.of parts).Describes parts (Interval.of parts).unit := by
  obtain ⟨hunit, hfactor⟩ := cast_power two_pos (parts.exponent - 2)
  have hquarter : (2 : ℚ) ^ parts.exponent = 4 * 2 ^ (parts.exponent - 2) := by
    rw [zpow_sub₀ two_ne_zero]
    norm_num
    ring
  refine ⟨Nat.cast_pos.mpr hunit, ?_, ?_, ?_, ?_⟩ <;> dsimp only [Interval.of]
  · rw [Nat.cast_mul, hfactor, ← mul_assoc, hquarter]
    congr 1
    by_cases hpower : parts.significand = Nat.pow 2 Binary64.storedBits ∧
        Binary64.minExponent < parts.exponent
    · have hmargin : parts.margin = 1 / 4 := if_pos hpower
      rw [if_pos hpower, hmargin, Nat.cast_sub (by omega)]
      push_cast
      ring
    · have hmargin : parts.margin = 1 / 2 := if_neg hpower
      rw [if_neg hpower, hmargin, Nat.cast_sub (by omega)]
      push_cast
      ring
  · rw [Nat.cast_mul, hfactor, Parts.magnitude, hquarter]
    push_cast
    ring
  · rw [Nat.cast_mul, hfactor, hquarter]
    push_cast
    ring
  · rw [decide_eq_true_iff, Nat.even_iff]

section

variable {interval : Interval} {parts : Parts} {unit : ℚ}

theorem Interval.Describes.holds_iff (hinterval : interval.Describes parts unit) {point : Nat}
    {number : ℚ} (hpoint : (point : ℚ) = number * unit) :
    interval.holds point = true ↔ parts.Covers number := by
  rw [Parts.Covers, ← Within.mul_right_iff hinterval.unit_pos, ← hinterval.lower,
    ← hinterval.upper, ← hpoint, Within, ← hinterval.closed, Interval.holds]
  norm_cast
  cases interval.closed with
  | true => simp [le_iff_lt_or_eq]
  | false => simp

/-- In the refined unit the multiples of a power of ten are multiples of the step. -/
theorem Interval.Describes.refine (hinterval : interval.Describes parts interval.unit)
    (exponent : Int) :
    ∃ refined : ℚ, (interval.refine exponent).Describes parts refined ∧
      (interval.step exponent : ℚ) = 10 ^ exponent * refined := by
  obtain ⟨hfactor, hpower⟩ := cast_power (by decide : 0 < 10) exponent
  rw [Nat.cast_ofNat] at hpower
  refine ⟨interval.unit * (if 0 ≤ exponent then 1 else Nat.pow 10 (-exponent).toNat : Nat),
    ⟨mul_pos hinterval.unit_pos (Nat.cast_pos.mpr hfactor), ?_, ?_, ?_, hinterval.closed⟩, ?_⟩
  · rw [← mul_assoc, ← hinterval.lower]
    exact Nat.cast_mul _ _
  · rw [← mul_assoc, ← hinterval.value]
    exact Nat.cast_mul _ _
  · rw [← mul_assoc, ← hinterval.upper]
    exact Nat.cast_mul _ _
  · rw [mul_left_comm, ← hpower, ← Nat.cast_mul, Interval.step, mul_ite, mul_one]

theorem Interval.Describes.mul_step_le_iff (hinterval : interval.Describes parts unit) {step : Nat}
    {power : ℚ} (hstep : (step : ℚ) = power * unit) (place : Nat) :
    place * step ≤ interval.value ↔ place * power ≤ parts.magnitude := by
  rw [← @Nat.cast_le ℚ, Nat.cast_mul, hstep, hinterval.value, ← mul_assoc,
    mul_le_mul_iff_left₀ hinterval.unit_pos]

theorem reaches_iff (hinterval : interval.Describes parts interval.unit) (exponent : Int) :
    reaches interval exponent = true ↔ 10 ^ exponent ≤ parts.magnitude := by
  obtain ⟨refined, hrefined, hstep⟩ := hinterval.refine exponent
  have hone := hrefined.mul_step_le_iff hstep 1
  rw [one_mul, Nat.cast_one, one_mul] at hone
  rw [reaches, decide_eq_true_iff, hone]

end

/-! ### The places next to a double -/

/-- Whether a place on the grid of the multiples of a power of ten is read as a double. -/
def Fits (parts : Parts) (exponent : Int) (place : Nat) : Prop :=
  0 < place ∧ parts.Covers (place * 10 ^ exponent)

/-- Of two neighbours the hit is chosen, and of two hits the nearer one, in a tie the even one. -/
theorem choice_cases (low high : Bool) (below toLow toHigh : Nat) :
    let found := if low && high then
        if toLow < toHigh ∨ (toLow = toHigh ∧ below % 2 = 0) then some below else some (below + 1)
      else if low then some below
      else if high then some (below + 1)
      else none
    found = none ∧ ¬low = true ∧ ¬high = true ∨
      found = some below ∧ low = true ∧
        (high = true → toLow < toHigh ∨ toLow = toHigh ∧ Even below) ∨
      found = some (below + 1) ∧ high = true ∧
        (low = true → toHigh < toLow ∨ toLow = toHigh ∧ ¬Even below) := by
  rw [Nat.even_iff]
  cases low with
  | false => cases high <;> simp
  | true =>
    cases high with
    | false => simp
    | true =>
      simp only [Bool.and_self, if_true]
      split
      · rename_i hnearer
        simp [hnearer]
      · rename_i hfarther
        refine Or.inr (Or.inr ⟨rfl, trivial, fun _ ↦ ?_⟩)
        omega

section

variable {interval : Interval} {parts : Parts} {exponent : Int} {place : Nat}

/-- The search looks at the last place that is not above a double and at the next one. If both are
read as the double it chooses the nearer, and the even one in a tie. -/
theorem onGrid?_cases (hinterval : interval.Describes parts interval.unit) (exponent : Int) :
    ∃ below : Nat, below * 10 ^ exponent ≤ parts.magnitude ∧
      parts.magnitude < (below + 1) * 10 ^ exponent ∧
      (onGrid? interval exponent = none ∧ ¬Fits parts exponent below ∧
          ¬Fits parts exponent (below + 1) ∨
        onGrid? interval exponent = some below ∧ Fits parts exponent below ∧
          (Fits parts exponent (below + 1) →
            parts.magnitude < (below + 1 / 2) * 10 ^ exponent ∨
              parts.magnitude = (below + 1 / 2) * 10 ^ exponent ∧ Even below) ∨
        onGrid? interval exponent = some (below + 1) ∧ Fits parts exponent (below + 1) ∧
          (Fits parts exponent below →
            (below + 1 / 2) * 10 ^ exponent < parts.magnitude ∨
              parts.magnitude = (below + 1 / 2) * 10 ^ exponent ∧ ¬Even below)) := by
  obtain ⟨unit, hrefined, hstep⟩ := hinterval.refine exponent
  have hunit := hrefined.unit_pos
  have hpositive : 0 < interval.step exponent := by
    have hcast : (0 : ℚ) < interval.step exponent := hstep ▸ by positivity
    exact_mod_cast hcast
  have hholds (place : Nat) : (interval.refine exponent).holds (place * interval.step exponent)
      = true ↔ parts.Covers (place * 10 ^ exponent) :=
    hrefined.holds_iff (by rw [Nat.cast_mul, hstep, mul_assoc])
  obtain ⟨below, hbelow⟩ : ∃ below, (interval.refine exponent).value / interval.step exponent
      = below := ⟨_, rfl⟩
  have hdown : below * interval.step exponent ≤ (interval.refine exponent).value :=
    hbelow ▸ Nat.div_mul_le_self _ _
  have hup : (interval.refine exponent).value < (below + 1) * interval.step exponent :=
    hbelow ▸ Nat.lt_mul_of_div_lt (Nat.lt_succ_self _) hpositive
  have habove := lt_iff_lt_of_le_iff_le (hrefined.mul_step_le_iff hstep (below + 1)) |>.mp hup
  rw [Nat.cast_add_one] at habove
  refine ⟨below, (hrefined.mul_step_le_iff hstep below).mp hdown, habove, ?_⟩
  have hlow : ((interval.refine exponent).holds (below * interval.step exponent) && below != 0)
      = true ↔ Fits parts exponent below := by
    rw [Bool.and_eq_true, hholds, bne_iff_ne, Fits, Nat.pos_iff_ne_zero, and_comm]
  have hhigh : (interval.refine exponent).holds ((below + 1) * interval.step exponent) = true ↔
      Fits parts exponent (below + 1) := by
    rw [hholds, Fits, and_iff_right (Nat.succ_pos below)]
  have htoLow : (((interval.refine exponent).value - below * interval.step exponent : Nat) : ℚ) =
      (parts.magnitude - below * 10 ^ exponent) * unit := by
    rw [Nat.cast_sub hdown, Nat.cast_mul, hrefined.value, hstep]
    ring
  have htoHigh : (((below + 1) * interval.step exponent - (interval.refine exponent).value : Nat) :
      ℚ) = ((below + 1) * 10 ^ exponent - parts.magnitude) * unit := by
    rw [Nat.cast_sub hup.le, Nat.cast_mul, hrefined.value, hstep, Nat.cast_add_one]
    ring
  rw [onGrid?, hbelow]
  dsimp only
  generalize (interval.refine exponent).value - below * interval.step exponent = toLow at htoLow ⊢
  generalize (below + 1) * interval.step exponent - (interval.refine exponent).value = toHigh
    at htoHigh ⊢
  have hless : toLow < toHigh ↔ parts.magnitude < (below + 1 / 2) * 10 ^ exponent := by
    rw [← @Nat.cast_lt ℚ, htoLow, htoHigh, mul_lt_mul_iff_left₀ hunit]
    constructor <;> intro hnearer <;> linarith
  have hgreater : toHigh < toLow ↔ (below + 1 / 2) * 10 ^ exponent < parts.magnitude := by
    rw [← @Nat.cast_lt ℚ, htoLow, htoHigh, mul_lt_mul_iff_left₀ hunit]
    constructor <;> intro hnearer <;> linarith
  have htie : toLow = toHigh ↔ parts.magnitude = (below + 1 / 2) * 10 ^ exponent := by
    rw [← @Nat.cast_inj ℚ, htoLow, htoHigh, mul_left_inj' hunit.ne']
    constructor <;> intro hsame <;> linarith
  rw [← hlow, ← hhigh, ← hless, ← hgreater, ← htie]
  exact choice_cases _ _ below toLow toHigh

/-- What the search finds on a grid: a place that is read as the double, at most one step above it,
such that no other such place is nearer. In a tie it is even, and the other place is odd. -/
structure IsNearest (parts : Parts) (exponent : Int) (place : Nat) : Prop where
  fits : Fits parts exponent place
  le : place * 10 ^ exponent ≤ parts.magnitude + 10 ^ exponent
  nearest : ∀ other, Fits parts exponent other →
    |place * 10 ^ exponent - parts.magnitude| ≤ |other * 10 ^ exponent - parts.magnitude|
  tie : ∀ other, Fits parts exponent other → other ≠ place →
    |place * 10 ^ exponent - parts.magnitude| = |other * 10 ^ exponent - parts.magnitude| →
    Even place ∧ ¬Even other ∧ other * 10 ^ exponent ≤ parts.magnitude + 10 ^ exponent

theorem eq_of_mul_pow_eq {first second : Nat}
    (hsame : (first * 10 ^ exponent : ℚ) = second * 10 ^ exponent) : first = second := by
  exact_mod_cast mul_right_cancel₀ (zpow_ne_zero exponent (by norm_num : (10 : ℚ) ≠ 0)) hsame

section

variable {below other : Nat} (hdown : below * 10 ^ exponent ≤ parts.magnitude)
  (hup : parts.magnitude < (below + 1) * 10 ^ exponent)

include hdown hup

/-- A place that is read as the double lies on one side of it, and then so does the neighbour of the
double on that side. -/
theorem Fits.neighbour (hother : Fits parts exponent other) :
    other * 10 ^ exponent ≤ (below * 10 ^ exponent : ℚ) ∧ Fits parts exponent below ∨
      ((below + 1) * 10 ^ exponent : ℚ) ≤ other * 10 ^ exponent ∧
        Fits parts exponent (below + 1) := by
  rcases Nat.lt_or_ge below other with habove | hbelow
  · have hstep : ((below + 1) * 10 ^ exponent : ℚ) ≤ other * 10 ^ exponent :=
      mul_le_mul_of_nonneg_right (by exact_mod_cast habove) (by positivity)
    refine Or.inr ⟨hstep, Nat.succ_pos below, ?_⟩
    rw [Nat.cast_add_one]
    exact parts.covers_magnitude.convex hother.2 hup.le hstep
  · have hstep : (other * 10 ^ exponent : ℚ) ≤ below * 10 ^ exponent :=
      mul_le_mul_of_nonneg_right (Nat.cast_le.mpr hbelow) (by positivity)
    exact Or.inl ⟨hstep, hother.1.trans_le hbelow,
      hother.2.convex parts.covers_magnitude hstep hdown⟩

theorem isNearest_below (hbelow : Fits parts exponent below)
    (hchoice : Fits parts exponent (below + 1) →
      parts.magnitude < (below + 1 / 2) * 10 ^ exponent ∨
        parts.magnitude = (below + 1 / 2) * 10 ^ exponent ∧ Even below) :
    IsNearest parts exponent below := by
  have hpower : (0 : ℚ) < 10 ^ exponent := by positivity
  refine ⟨hbelow, by linarith, fun other hother ↦ ?_, fun other hother hdiffer hsame ↦ ?_⟩
  · rw [abs_of_nonpos (sub_nonpos.mpr hdown)]
    rcases hother.neighbour hdown hup with ⟨hstep, -⟩ | ⟨hstep, habove⟩
    · rw [abs_of_nonpos (by linarith)]
      linarith
    · have hmiddle := (hchoice habove).elim le_of_lt fun htie ↦ htie.1.le
      rw [abs_of_nonneg (by linarith)]
      linarith
  · rw [abs_of_nonpos (sub_nonpos.mpr hdown)] at hsame
    rcases hother.neighbour hdown hup with ⟨hstep, -⟩ | ⟨hstep, habove⟩
    · rw [abs_of_nonpos (by linarith)] at hsame
      exact absurd (eq_of_mul_pow_eq (by linarith)) hdiffer
    · rw [abs_of_nonneg (by linarith)] at hsame
      obtain ⟨hmiddle, heven⟩ := (hchoice habove).resolve_left (by linarith)
      obtain rfl : other = below + 1 := eq_of_mul_pow_eq (by rw [Nat.cast_add_one]; linarith)
      rw [Nat.cast_add_one, Nat.even_add_one]
      exact ⟨heven, not_not.mpr heven, by linarith⟩

theorem isNearest_above (habove : Fits parts exponent (below + 1))
    (hchoice : Fits parts exponent below →
      (below + 1 / 2) * 10 ^ exponent < parts.magnitude ∨
        parts.magnitude = (below + 1 / 2) * 10 ^ exponent ∧ ¬Even below) :
    IsNearest parts exponent (below + 1) := by
  have hpower : (0 : ℚ) < 10 ^ exponent := by positivity
  refine ⟨habove, ?_, fun other hother ↦ ?_, fun other hother hdiffer hsame ↦ ?_⟩
  · rw [Nat.cast_add_one]
    linarith
  · rw [Nat.cast_add_one, abs_of_nonneg (sub_nonneg.mpr hup.le)]
    rcases hother.neighbour hdown hup with ⟨hstep, hbelow⟩ | ⟨hstep, -⟩
    · have hmiddle := (hchoice hbelow).elim le_of_lt fun htie ↦ htie.1.ge
      rw [abs_of_nonpos (by linarith)]
      linarith
    · rw [abs_of_nonneg (by linarith)]
      linarith
  · rw [Nat.cast_add_one, abs_of_nonneg (sub_nonneg.mpr hup.le)] at hsame
    rcases hother.neighbour hdown hup with ⟨hstep, hbelow⟩ | ⟨hstep, -⟩
    · rw [abs_of_nonpos (by linarith)] at hsame
      obtain ⟨hmiddle, hodd⟩ := (hchoice hbelow).resolve_left (by linarith)
      obtain rfl : other = below := eq_of_mul_pow_eq (by linarith)
      exact ⟨Nat.even_add_one.mpr hodd, hodd, by linarith⟩
    · rw [abs_of_nonneg (by linarith)] at hsame
      exact absurd (eq_of_mul_pow_eq (by rw [Nat.cast_add_one]; linarith)) hdiffer

end

theorem not_fits_of_onGrid? (hinterval : interval.Describes parts interval.unit)
    (hnone : onGrid? interval exponent = none) (place : Nat) : ¬Fits parts exponent place := by
  intro hplace
  obtain ⟨below, hdown, hup, ⟨-, hbelow, habove⟩ | ⟨hfound, -⟩ | ⟨hfound, -⟩⟩ :=
    onGrid?_cases hinterval exponent
  · rcases hplace.neighbour hdown hup with ⟨-, hfits⟩ | ⟨-, hfits⟩
    · exact hbelow hfits
    · exact habove hfits
  · exact nomatch hnone.symm.trans hfound
  · exact nomatch hnone.symm.trans hfound

theorem isNearest_of_onGrid? (hinterval : interval.Describes parts interval.unit)
    (hfound : onGrid? interval exponent = some place) : IsNearest parts exponent place := by
  obtain ⟨below, hdown, hup, ⟨hnone, -⟩ | ⟨hbelow, hfits, hchoice⟩ | ⟨habove, hfits, hchoice⟩⟩ :=
    onGrid?_cases hinterval exponent
  · exact nomatch hnone.symm.trans hfound
  · obtain rfl := Option.some.inj (hfound.symm.trans hbelow)
    exact isNearest_below hdown hup hfits hchoice
  · obtain rfl := Option.some.inj (hfound.symm.trans habove)
    exact isNearest_above hdown hup hfits hchoice

end

/-! ### The decimal point -/

/-- Powers of ten are compared with powers of two by `10 ^ 3 ≤ 2 ^ 10` and `2 ^ 93 ≤ 10 ^ 28`. -/
theorem ten_zpow_le_two_zpow {point binary : Int} (hnonneg : 0 ≤ binary → 10 * point ≤ 3 * binary)
    (hnonpos : binary ≤ 0 → 93 * point ≤ 28 * binary) : (10 : ℚ) ^ point ≤ 2 ^ binary := by
  rcases le_total 0 binary with hbinary | hbinary
  · refine le_of_pow_le_pow_left₀ (n := 10) (by decide) (by positivity) ?_
    calc ((10 : ℚ) ^ point) ^ 10
        = 10 ^ (10 * point) := by rw [mul_comm, zpow_mul, zpow_ofNat]
      _ ≤ 10 ^ (3 * binary) := zpow_le_zpow_right₀ (by norm_num) (hnonneg hbinary)
      _ = (10 ^ 3) ^ binary := by rw [zpow_mul, zpow_ofNat]
      _ ≤ (2 ^ 10) ^ binary := zpow_le_zpow_left₀ hbinary (by norm_num) (by norm_num)
      _ = (2 ^ binary) ^ 10 := by rw [← zpow_ofNat, ← zpow_mul, mul_comm, zpow_mul, zpow_ofNat]
  · refine le_of_pow_le_pow_left₀ (n := 93) (by decide) (by positivity) ?_
    obtain ⟨power, rfl⟩ : ∃ power : Nat, binary = -power := ⟨(-binary).toNat, by omega⟩
    have hpowers : ((2 : ℚ) ^ 93) ^ power ≤ (10 ^ 28) ^ power :=
      pow_le_pow_left₀ (by norm_num) (by norm_num) power
    calc ((10 : ℚ) ^ point) ^ 93
        = 10 ^ (93 * point) := by rw [mul_comm, zpow_mul, zpow_ofNat]
      _ ≤ 10 ^ (28 * (-power : Int)) := zpow_le_zpow_right₀ (by norm_num) (hnonpos hbinary)
      _ = ((10 ^ 28) ^ power)⁻¹ := by rw [zpow_mul, zpow_ofNat, zpow_neg, zpow_natCast]
      _ ≤ ((2 ^ 93) ^ power)⁻¹ := inv_anti₀ (by positivity) hpowers
      _ = (2 ^ (-power : Int)) ^ 93 := by
        rw [zpow_neg, zpow_natCast, inv_pow, ← pow_mul, ← pow_mul, mul_comm]

theorem two_zpow_le_ten_zpow {point binary : Int} (hnonneg : 0 ≤ binary → 28 * binary ≤ 93 * point)
    (hnonpos : binary ≤ 0 → 3 * binary ≤ 10 * point) : (2 : ℚ) ^ binary ≤ 10 ^ point := by
  rw [← inv_le_inv₀ (by positivity) (by positivity), ← zpow_neg, ← zpow_neg]
  exact ten_zpow_le_two_zpow (fun hbinary ↦ by linarith [hnonpos (by omega)])
    fun hbinary ↦ by linarith [hnonneg (by omega)]

/-- The decimal point is estimated by a logarithm with five digits. The search for the point begins
one below the estimate and makes four attempts, which is enough for the exponents of doubles. -/
theorem ten_zpow_estimate {binary : Int} (hleast : -1074 ≤ binary) (hmost : binary ≤ 1023) :
    (10 : ℚ) ^ (Int.fdiv (binary * 30103) 100000 - 2) ≤ 2 ^ binary ∧
      (2 : ℚ) ^ (binary + 1) ≤ 10 ^ (Int.fdiv (binary * 30103) 100000 + 3) := by
  rw [Int.fdiv_eq_ediv_of_nonneg _ (by decide)]
  constructor
  · exact ten_zpow_le_two_zpow (fun _ ↦ by omega) fun _ ↦ by omega
  · exact two_zpow_le_ten_zpow (fun _ ↦ by omega) fun _ ↦ by omega

section

variable {interval : Interval} {parts : Parts}

theorem between_pointFrom (hinterval : interval.Describes parts interval.unit) {attempts : Nat}
    {estimate : Int} (hleast : 10 ^ (estimate - 1) ≤ parts.magnitude)
    (hmost : parts.magnitude < 10 ^ (estimate + attempts)) :
    10 ^ (pointFrom attempts interval estimate - 1) ≤ parts.magnitude ∧
      parts.magnitude < 10 ^ pointFrom attempts interval estimate := by
  induction attempts generalizing estimate with
  | zero => exact ⟨hleast, by simpa [pointFrom] using hmost⟩
  | succ attempts ih =>
    rw [pointFrom]
    split
    · rename_i hreaches
      refine ih ?_ ?_
      · rw [add_sub_cancel_right]
        exact (reaches_iff hinterval estimate).mp hreaches
      · rwa [add_right_comm, add_assoc, ← Nat.cast_add_one]
    · rename_i hless
      exact ⟨hleast, not_le.mp (mt (reaches_iff hinterval estimate).mpr hless)⟩

theorem between_decimalPoint (hparts : parts.IsFinite) (hpositive : 0 < parts.significand) :
    10 ^ (decimalPoint parts (Interval.of parts) - 1) ≤ parts.magnitude ∧
      parts.magnitude < 10 ^ decimalPoint parts (Interval.of parts) := by
  have hlog : parts.significand.log2 < 53 := (Nat.log2_lt hpositive.ne').mpr hparts.small
  have hlower : (2 : ℚ) ^ (parts.significand.log2 + parts.exponent : Int) ≤ parts.magnitude := by
    rw [zpow_add₀ two_ne_zero, zpow_natCast]
    refine mul_le_mul_of_nonneg_right ?_ (by positivity)
    exact_mod_cast Nat.log2_self_le hpositive.ne'
  have hupper : parts.magnitude < 2 ^ (parts.significand.log2 + parts.exponent + 1 : Int) := by
    rw [add_right_comm, zpow_add₀ two_ne_zero, ← Nat.cast_add_one, zpow_natCast]
    refine mul_lt_mul_of_pos_right ?_ (by positivity)
    exact_mod_cast Nat.lt_log2_self
  have hsmallest : -1074 ≤ parts.exponent := hparts.least
  have hgreatest := hparts.most
  obtain ⟨hleast, hmost⟩ := @ten_zpow_estimate (parts.significand.log2 + parts.exponent)
    (by omega) (by omega)
  refine between_pointFrom (Interval.describes_of hpositive) ?_ ?_
  · rw [sub_sub]
    exact hleast.trans hlower
  · refine hupper.trans_le (hmost.trans_eq ?_)
    congr 1
    omega

/-! ### The first grid with a hit -/

theorem search_found {point : Int} {attempts count enough : Nat} (hcount : count ≤ enough)
    (henough : enough < count + attempts)
    (hhit : onGrid? interval (point - enough) ≠ none) :
    ∃ found coefficient, count ≤ found ∧
      search attempts interval point count = (coefficient, point - found) ∧
      onGrid? interval (point - found) = some coefficient ∧
      ∀ fewer, count ≤ fewer → fewer < found → onGrid? interval (point - fewer) = none := by
  induction attempts generalizing count with
  | zero => omega
  | succ attempts ih =>
    rw [search]
    split
    · rename_i coefficient hfound
      exact ⟨count, coefficient, le_rfl, rfl, hfound, fun fewer hleast hless ↦ by omega⟩
    · rename_i hnone
      have hlater : count ≠ enough := fun hsame ↦ hhit (hsame ▸ hnone)
      obtain ⟨found, coefficient, hmore, hsearch, hfound, hfewer⟩ :=
        @ih (count + 1) (by omega) (by omega)
      refine ⟨found, coefficient, by omega, hsearch, hfound, fun fewer hleast hless ↦ ?_⟩
      rcases hleast.lt_or_eq with hlonger | rfl
      · exact hfewer fewer hlonger hless
      · exact hnone

/-- The rounding interval of a double is wider than a step of the grid with seventeen digits. -/
theorem exists_fits (hparts : parts.IsFinite) {point : Int}
    (hpoint : 10 ^ (point - 1) ≤ parts.magnitude) : ∃ place, Fits parts (point - 17) place := by
  have hstep : (0 : ℚ) < 10 ^ (point - 17) := by positivity
  have hunit : (0 : ℚ) < 2 ^ parts.exponent := by positivity
  have hleast : 10 ^ 16 * 10 ^ (point - 17) ≤ parts.magnitude := by
    refine le_of_eq_of_le ?_ hpoint
    rw [← zpow_natCast, ← zpow_add₀ (by norm_num)]
    congr 1
    omega
  have hwide : 10 ^ (point - 17) < (1 / 2 + parts.margin) * 2 ^ parts.exponent := by
    rw [Parts.magnitude] at hleast
    rw [Parts.margin]
    split
    · rename_i hpower
      rw [hpower.1] at hleast
      push_cast at hleast
      linarith
    · have hsmall : (parts.significand : ℚ) ≤ 2 ^ 53 := by exact_mod_cast hparts.small.le
      have hmost := mul_le_mul_of_nonneg_right hsmall hunit.le
      linarith
  have hmargin := mul_pos parts.margin_pos hunit
  have hnonneg : 0 ≤ parts.magnitude / 10 ^ (point - 17) := by
    rw [Parts.magnitude]
    positivity
  have hdown := (le_div_iff₀ hstep).mp (Nat.floor_le hnonneg)
  have hup := (div_lt_iff₀ hstep).mp (Nat.lt_floor_add_one (parts.magnitude / 10 ^ (point - 17)))
  generalize ⌊parts.magnitude / 10 ^ (point - 17)⌋₊ = below at hdown hup
  rw [Parts.magnitude] at hleast hdown hup
  by_cases hlower :
      (parts.significand - parts.margin) * 2 ^ parts.exponent < below * 10 ^ (point - 17)
  · refine ⟨below, ?_, .of_lt hlower (by linarith)⟩
    by_contra hzero
    obtain rfl := Nat.eq_zero_of_not_pos hzero
    rw [Nat.cast_zero] at hup
    linarith
  · refine ⟨below + 1, Nat.succ_pos below, .of_lt ?_ ?_⟩ <;> rw [Nat.cast_add_one] <;> linarith

/-- The search ends on the first grid on which a place is read as the double, at the nearest such
place. -/
theorem search_spec (hparts : parts.IsFinite) (hpositive : 0 < parts.significand) {point : Int}
    (hpoint : 10 ^ (point - 1) ≤ parts.magnitude) :
    ∃ count coefficient : Nat, 0 < count ∧
      search 17 (Interval.of parts) point 1 = (coefficient, point - count) ∧
      IsNearest parts (point - count) coefficient ∧
      ∀ fewer : Nat, 0 < fewer → fewer < count → ∀ place, ¬Fits parts (point - fewer) place := by
  have hinterval := Interval.describes_of hpositive
  obtain ⟨place, hplace⟩ := exists_fits hparts hpoint
  have hhit : onGrid? (Interval.of parts) (point - (17 : Nat)) ≠ none := fun hnone ↦
    not_fits_of_onGrid? hinterval hnone place hplace
  obtain ⟨count, coefficient, hcount, hsearch, hfound, hfewer⟩ :=
    @search_found _ point 17 1 17 (by decide) (by decide) hhit
  exact ⟨count, coefficient, hcount, hsearch, isNearest_of_onGrid? hinterval hfound,
    fun fewer hleast hless ↦ not_fits_of_onGrid? hinterval (hfewer fewer hleast hless)⟩

end

end Shortest

end Metaobject.Number
