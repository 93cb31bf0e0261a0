import Metaobject.Proofs.Run.Simulation

/-!
# Raising the limits of sessions

A limit that refuses nothing does nothing. A session under higher limits goes as it does under lower
ones, step by step and to the same heap, output, trace and log of imports, if in the session under
the lower limits no call is refused for its depth and no integer power for its size
(`Session.outcomes_of_raised`). A limit that stays the same may refuse as often as it likes: the
refusals are the same, and so is what handlers make of them.
-/

set_option autoImplicit false
set_option relaxedAutoImplicit false

namespace Metaobject

/-! ### Refusals -/

/-- Whether a call or code is refused for its depth. -/
def Moment.refusesCall (moment : Moment) : Bool :=
  match moment.action with
  | .refuses => true
  | _ => false

/-- Whether an integer power is refused for its size. -/
def Moment.refusesPower (limits : Limits) (moment : Moment) : Bool :=
  match moment.action with
  | .performs (.permitBits bits) => limits.maxIntegerBits < bits
  | _ => false

/-- Whether a moment is no refusal by a limit that is raised. -/
def Moment.Bears (limits raised : Limits) (moment : Moment) : Prop :=
  (limits.maxDepth ≠ raised.maxDepth → moment.refusesCall = false) ∧
    (limits.maxIntegerBits ≠ raised.maxIntegerBits → moment.refusesPower limits = false)

/-- Two runs under limits of which one is raised stay together in the same world, as long as it
refuses nothing. -/
theorem Settings.couples_raised (settings : Settings) {raised : Limits}
    (hdepth : settings.limits.maxDepth ≤ raised.maxDepth)
    (hbits : settings.limits.maxIntegerBits ≤ raised.maxIntegerBits) :
    Couples settings { settings with limits := raised } Eq
      (Moment.Bears settings.limits raised) where
  effect := by
    rintro Answer effect world _ rfl hbears
    cases effect with
    | permitBits bits =>
      by_cases hrefused : settings.limits.maxIntegerBits < bits
      · have hsame : settings.limits.maxIntegerBits = raised.maxIntegerBits :=
          Decidable.byContradiction fun hraised ↦
            absurd (hbears.2 hraised) (by simp [Moment.refusesPower, hrefused])
        simp [Effect.answer, ← hsame, Ending.Alike]
      · have hpermitted : ¬raised.maxIntegerBits < bits := by omega
        simp [Effect.answer, hrefused, hpermitted, Ending.Alike]
    | _ => exact ⟨rfl, rfl⟩
  refuses := by
    rintro world _ rfl hbears
    refine ⟨fun hrefused ↦ ?_, Nat.le_trans hdepth⟩
    have hsame : settings.limits.maxDepth = raised.maxDepth :=
      Decidable.byContradiction fun hraised ↦
        absurd ((hbears hrefused).1 hraised) (by simp [Moment.refusesCall])
    exact hsame ▸ hrefused
  depth := congrArg World.depth
  atDepth := by
    rintro world _ rfl depth
    rfl
  observe := by
    rintro world _ rfl event
    rfl

namespace Session

/-- Raising limits changes nothing for a session in which they refuse nothing. If no call is refused
for its depth, in case the limit of the depth is raised, and no integer power for its size, in case
that limit is raised, then each statement ends under the raised limits as under the lower ones, in
the same world: with the same heap, the same output, the same trace and the same imports. -/
theorem outcomes_of_raised (configuration : Configuration) (raised : Limits)
    (hdepth : configuration.limits.maxDepth ≤ raised.maxDepth)
    (hbits : configuration.limits.maxIntegerBits ≤ raised.maxIntegerBits) (patience : Nat)
    (statements : List Script.Statement)
    (hcalls : configuration.limits.maxDepth ≠ raised.maxDepth →
      ∀ moment ∈ (start configuration).historyOf patience statements,
        moment.refusesCall = false)
    (hpowers : configuration.limits.maxIntegerBits ≠ raised.maxIntegerBits →
      ∀ moment ∈ (start configuration).historyOf patience statements,
        moment.refusesPower configuration.limits = false) :
    (start { configuration with limits := raised }).outcomes patience statements =
        (start configuration).outcomes patience statements ∧
      ((start { configuration with limits := raised }).after patience statements).world =
        ((start configuration).after patience statements).world := by
  have hcouples := (start configuration).settings.couples_raised hdepth hbits
  have hbears : ∀ moment ∈ (start configuration).historyOf patience statements,
      moment.Bears configuration.limits raised := fun moment hmoment ↦
    ⟨fun hraised ↦ hcalls hraised moment hmoment, fun hraised ↦ hpowers hraised moment hmoment⟩
  obtain ⟨houtcomes, hafter⟩ := hcouples.outcomes (start configuration)
    (start { configuration with limits := raised }) rfl rfl hbears
  refine ⟨?_, hafter.symm⟩
  rw [← List.forall₂_eq_eq_eq]
  exact (houtcomes.imp fun _ _ halike ↦ Prod.ext halike.1 halike.2).flip.imp fun _ _ ↦ Eq.symm

/-! ### A session at its limits -/

namespace AtLimit

open Script

/-- A call that is not nested, and a power of two. -/
def statements : List Statement :=
  [.evaluate (.callBuiltin "abs" [.literal (.int (-2))] .absent),
   .evaluate (.probe (.runtime .power) [.literal (.int 2), .literal (.int 3)])]

/-- One call may be open, and a power may have six bits. -/
def configuration : Configuration :=
  { Configuration.scripted with limits := ⟨1, 6⟩, observer := .recording none [] }

/-- One more call may be open, and a power may have one more bit. -/
def raised : Limits := ⟨2, 7⟩

end AtLimit

/-- The two statements end as they do under higher limits, with a value each. -/
theorem outcomes_of_raised_atLimit :
    (start { AtLimit.configuration with limits := AtLimit.raised }).outcomes 2 AtLimit.statements =
        (start AtLimit.configuration).outcomes 2 AtLimit.statements ∧
      ((start AtLimit.configuration).outcomes 2 AtLimit.statements).map (·.1.isValue) =
        [true, true] := by
  have hcalls : ∀ moment ∈ (start AtLimit.configuration).historyOf 2 AtLimit.statements,
      moment.refusesCall = false := by with_unfolding_all decide
  have hpowers : ∀ moment ∈ (start AtLimit.configuration).historyOf 2 AtLimit.statements,
      moment.refusesPower AtLimit.configuration.limits = false := by with_unfolding_all decide
  exact ⟨(outcomes_of_raised AtLimit.configuration AtLimit.raised (by decide) (by decide) 2
    AtLimit.statements (fun _ ↦ hcalls) (fun _ ↦ hpowers)).1, by with_unfolding_all decide⟩

end Session

end Metaobject
