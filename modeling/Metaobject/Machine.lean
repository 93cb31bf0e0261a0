import Metaobject.Call
import Metaobject.World.Answer

/-!
# Running programs

How a program runs when it is known how requests are answered (`Program.run`), and how requests are
answered (`Request.answer`): they run other programs. A call and the running of code go one level
deeper and are refused at the depth limit without any effect; the depth is restored however they
end. Calls of builtin functions are reported when they begin and when they end.

A run of one program after another is the one run after the other (`Program.run_bind`). Patience
bounds how deep requests nest and how many items are drained.
-/

set_option autoImplicit false
set_option relaxedAutoImplicit false

namespace Metaobject

/-! ### Programs -/

/-- Runs a program, given how requests are answered. -/
def Program.run (settings : Settings)
    (respond : {Answer : Type} → Request Answer → World → Ending Answer × World) :
    {Result : Type} → Program Result → World → Ending Result × World
  | _, .done result, world => (.value result, world)
  | _, .raise exception, world => (.raised exception, world)
  | _, .fault message, world => (.fault message, world)
  | _, .perform effect next, world =>
    Ending.andThen (effect.answer settings world) fun answer => (next answer).run settings respond
  | _, .ask request next, world =>
    Ending.andThen (respond request world) fun answer => (next answer).run settings respond
  | _, .attempt handler body next, world =>
    Ending.handled handler (body.run settings respond world) fun result =>
      (next result).run settings respond

/-- A program after another one runs when and where that one has ended with a value. -/
theorem Program.run_bind (settings : Settings)
    (respond : {Answer : Type} → Request Answer → World → Ending Answer × World)
    {First Second : Type} (program : Program First) (next : First → Program Second) :
    (program.bind next).run settings respond = fun world =>
      Ending.andThen (program.run settings respond world) fun result =>
        (next result).run settings respond := by
  induction program with
  | done | raise | fault => rfl
  | perform effect continuation ih | ask request continuation ih =>
    funext world
    simp only [Program.bind, Program.run, Ending.andThen_assoc, ih]
  | attempt handler body continuation _ ih =>
    funext world
    simp only [Program.bind, Program.run, Ending.andThen_handled, ih]

/-! ### Requests -/

namespace World

/-- Goes one level deeper for a part of a run, unless the limit is reached. -/
def deeper {Result : Type} (settings : Settings) (world : World)
    (part : World → Ending Result × World) : Ending Result × World :=
  if settings.limits.maxDepth ≤ world.depth then (.raised .recursionLimit, world)
  else
    let (ending, world) := part { world with depth := world.depth + 1 }
    (ending, { world with depth := world.depth - 1 })

/-- Reports the beginning and the end of a call of a builtin function. -/
def reporting {Result : Type} (world : World) (builtin : BuiltinFunction) (count : Nat)
    (part : World → Ending Result × World) : Ending Result × World :=
  let depth := world.depth
  let (ending, world) := part (world.observe (.builtinCall builtin.name count depth))
  (ending, world.observe (.builtinReturn builtin.name ending.isValue depth))

end World

/-- Runs the program of a call, with reports if a builtin function is called. -/
def Call.run (settings : Settings)
    (respond : {Answer : Type} → Request Answer → World → Ending Answer × World)
    (callable : Value) (arguments : Arguments) (world : World) : Ending Value × World :=
  let program := Call.dispatch callable arguments
  match callable with
  | .builtin (.function builtin) =>
    world.reporting builtin arguments.count (program.run settings respond)
  | _ => program.run settings respond world

/-- How a request is answered with a given patience. -/
def Request.answer (settings : Settings) : (patience : Nat) → {Answer : Type} → Request Answer →
    World → Ending Answer × World
  | 0, _, _, world => (.exhausted, world)
  | patience + 1, _, .call callable arguments, world =>
    world.deeper settings
      (Call.run settings (Request.answer settings patience) callable arguments)
  | patience + 1, _, .runCode frame code, world =>
    world.deeper settings
      ((Script.runCode frame code).run settings (Request.answer settings patience))
  | patience + 1, _, .drain iterator, world =>
    Ending.andThen ((Operation.advance iterator).run settings (Request.answer settings patience)
      world) fun step world =>
        match step with
        | .exhausted _ => (.value [], world)
        | .produced item =>
          Ending.andThen (Request.answer settings patience (.drain iterator) world)
            fun items world => (.value (item :: items), world)

end Metaobject
