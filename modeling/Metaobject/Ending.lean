import Metaobject.World

/-!
# Endings

How a run ends: with a value, an exception or an internal error, or without having been carried to
its end. The world at the end is the one that all effects up to there have made, whatever the
ending. What follows a run happens after a value only (`Ending.andThen`), or also after the
exceptions that a handler takes (`Ending.handled`); following is associative.
-/

set_option autoImplicit false
set_option relaxedAutoImplicit false

namespace Metaobject

/-- How a run ends. -/
inductive Ending (Result : Type)
  | value (result : Result)
  | raised (exception : Exception)
  | fault (message : String)
  /-- The run was not carried on to its end. -/
  | exhausted

/-- Whether a run ended with a value. -/
def Ending.isValue {Result : Type} : Ending Result → Bool
  | .value _ => true
  | _ => false

/-- The ending of a run that goes on after a value. -/
def Ending.andThen {First Second : Type} (outcome : Ending First × World)
    (next : First → World → Ending Second × World) : Ending Second × World :=
  match outcome with
  | (.value result, world) => next result world
  | (.raised exception, world) => (.raised exception, world)
  | (.fault message, world) => (.fault message, world)
  | (.exhausted, world) => (.exhausted, world)

/-- The ending of a run that goes on after a value and after the exceptions that a handler takes. -/
def Ending.handled {First Second : Type} (handler : Handler) (outcome : Ending First × World)
    (next : Except Exception First → World → Ending Second × World) : Ending Second × World :=
  match outcome with
  | (.value result, world) => next (.ok result) world
  | (.raised exception, world) =>
    if handler.takes exception then next (.error exception) world else (.raised exception, world)
  | (.fault message, world) => (.fault message, world)
  | (.exhausted, world) => (.exhausted, world)

namespace Ending

theorem andThen_assoc {First Second Third : Type} (outcome : Ending First × World)
    (second : First → World → Ending Second × World)
    (third : Second → World → Ending Third × World) :
    andThen (andThen outcome second) third =
      andThen outcome fun result world => andThen (second result world) third := by
  obtain ⟨ending, world⟩ := outcome
  cases ending <;> rfl

theorem andThen_handled {First Second Third : Type} (handler : Handler)
    (outcome : Ending First × World)
    (second : Except Exception First → World → Ending Second × World)
    (third : Second → World → Ending Third × World) :
    andThen (handled handler outcome second) third =
      handled handler outcome fun result world => andThen (second result world) third := by
  obtain ⟨ending, world⟩ := outcome
  cases ending with
  | value | fault | exhausted => rfl
  | raised exception =>
    by_cases taken : handler.takes exception = true
    · simp only [handled, if_pos taken]
    · simp only [handled, if_neg taken, andThen]

/-- A run after which nothing happens. -/
theorem andThen_done {Result : Type} (outcome : Ending Result × World) :
    andThen outcome (fun result world => (.value result, world)) = outcome := by
  obtain ⟨ending, world⟩ := outcome
  cases ending <;> rfl

end Ending

end Metaobject
