import Metaobject.Session

/-!
# Histories of runs

What happens in a run, moment by moment (`Program.history`, `Request.history`). A moment is an
effect, a request, the entering or leaving of a call, a refusal at the depth limit or a reported
event, with the worlds before and after it. What the answer to a request adds is a parameter of the
history of a program: nothing but the request itself, or the whole history inside it.

A history leaves nothing out: it leads from the world before the run to the world after it, each
moment from where the one before it ended (`Program.linked_history`, `Request.linked_history`), and
each moment changes the world as its action says (`Moment.IsStep`).
-/

set_option autoImplicit false
set_option relaxedAutoImplicit false

namespace Metaobject

/-! ### Moments -/

/-- What happens at a moment of a run. -/
inductive Action : Type 1
  | performs {Answer : Type} (effect : Effect Answer)
  | asks {Answer : Type} (request : Request Answer)
  /-- A call or code is entered. -/
  | enters
  /-- A call or code is left. -/
  | leaves
  /-- A call or code is refused at the depth limit. -/
  | refuses
  /-- A call of a builtin function is reported. -/
  | reports (event : TraceEvent)

/-- Something that happens, with the worlds before and after it. -/
structure Moment : Type 1 where
  action : Action
  before : World
  after : World

/-- Whether the world changes as the action says. A request changes nothing by being made. -/
def Moment.IsStep (settings : Settings) (moment : Moment) : Prop :=
  match moment.action with
  | .performs effect => moment.after = (effect.answer settings moment.before).2
  | .asks _ | .refuses => moment.after = moment.before
  | .enters => moment.after = { moment.before with depth := moment.before.depth + 1 }
  | .leaves => moment.after = { moment.before with depth := moment.before.depth - 1 }
  | .reports event => moment.after = moment.before.observe event

/-! ### Going on -/

namespace Ending

/-- What happens after a run that gave a value. -/
def onward {Result : Type} (outcome : Ending Result × World)
    (next : Result → World → List Moment) : List Moment :=
  match outcome with
  | (.value result, world) => next result world
  | _ => []

/-- What happens after a run that gave a value or an exception that a handler takes. -/
def handledOnward {Result : Type} (handler : Handler) (outcome : Ending Result × World)
    (next : Except Exception Result → World → List Moment) : List Moment :=
  match outcome with
  | (.value result, world) => next (.ok result) world
  | (.raised exception, world) =>
    if handler.takes exception then next (.error exception) world else []
  | _ => []

theorem onward_nil {Result : Type} (outcome : Ending Result × World) :
    onward outcome (fun _ _ ↦ []) = [] := by
  obtain ⟨ending, world⟩ := outcome
  cases ending <;> rfl

theorem onward_andThen {First Second : Type} (outcome : Ending First × World)
    (next : First → World → Ending Second × World) (later : Second → World → List Moment) :
    onward (andThen outcome next) later =
      onward outcome fun result world ↦ onward (next result world) later := by
  obtain ⟨ending, world⟩ := outcome
  cases ending <;> rfl

theorem onward_handled {First Second : Type} (handler : Handler) (outcome : Ending First × World)
    (next : Except Exception First → World → Ending Second × World)
    (later : Second → World → List Moment) :
    onward (handled handler outcome next) later =
      handledOnward handler outcome fun result world ↦ onward (next result world) later := by
  obtain ⟨ending, world⟩ := outcome
  cases ending with
  | value | fault | exhausted => rfl
  | raised exception =>
    by_cases htaken : handler.takes exception = true
    · simp only [handled, handledOnward, if_pos htaken]
    · simp only [handled, handledOnward, if_neg htaken, onward]

theorem onward_append {Result : Type} (outcome : Ending Result × World)
    (first second : Result → World → List Moment) :
    (onward outcome fun result world ↦ first result world ++ second result world) =
      onward outcome first ++ onward outcome second := by
  obtain ⟨ending, world⟩ := outcome
  cases ending <;> rfl

theorem handledOnward_append {Result : Type} (handler : Handler) (outcome : Ending Result × World)
    (first second : Except Exception Result → World → List Moment) :
    (handledOnward handler outcome fun result world ↦ first result world ++ second result world) =
      handledOnward handler outcome first ++ handledOnward handler outcome second := by
  obtain ⟨ending, world⟩ := outcome
  cases ending with
  | value | fault | exhausted => rfl
  | raised exception =>
    by_cases htaken : handler.takes exception = true
    · simp only [handledOnward, if_pos htaken]
    · simp only [handledOnward, if_neg htaken, List.append_nil]

theorem mem_onward {Result : Type} {outcome : Ending Result × World}
    {next : Result → World → List Moment} {moment : Moment} :
    moment ∈ onward outcome next ↔
      ∃ result, outcome.1 = .value result ∧ moment ∈ next result outcome.2 := by
  obtain ⟨ending, world⟩ := outcome
  cases ending <;> simp [onward]

theorem exists_of_mem_handledOnward {Result : Type} {handler : Handler}
    {outcome : Ending Result × World} {next : Except Exception Result → World → List Moment}
    {moment : Moment} (hmoment : moment ∈ handledOnward handler outcome next) :
    (∃ result, outcome.1 = .value result ∧ moment ∈ next (.ok result) outcome.2) ∨
      ∃ exception, outcome.1 = .raised exception ∧ moment ∈ next (.error exception) outcome.2 := by
  obtain ⟨ending, world⟩ := outcome
  cases ending with
  | value result => exact Or.inl ⟨result, rfl, hmoment⟩
  | raised exception =>
    by_cases htaken : handler.takes exception = true
    · rw [handledOnward, if_pos htaken] at hmoment
      exact Or.inr ⟨exception, rfl, hmoment⟩
    · rw [handledOnward, if_neg htaken] at hmoment
      exact absurd hmoment List.not_mem_nil
  | fault | exhausted => exact absurd hmoment List.not_mem_nil

/-- Where something happens after a handler, the run goes on with one result. -/
theorem exists_handledOnward_eq {Result : Type} {handler : Handler}
    {outcome : Ending Result × World} {next : Except Exception Result → World → List Moment}
    {moment : Moment} (hmoment : moment ∈ handledOnward handler outcome next) :
    ∃ result, ∀ later, handledOnward handler outcome later = later result outcome.2 := by
  obtain ⟨ending, world⟩ := outcome
  cases ending with
  | value result => exact ⟨.ok result, fun _ ↦ rfl⟩
  | raised exception =>
    by_cases htaken : handler.takes exception = true
    · exact ⟨.error exception, fun _ ↦ if_pos htaken⟩
    · rw [handledOnward, if_neg htaken] at hmoment
      exact absurd hmoment List.not_mem_nil
  | fault | exhausted => exact absurd hmoment List.not_mem_nil

/-- Changing the value of a run does not change its world. -/
theorem andThen_world {First Second : Type} (change : First → Second)
    (outcome : Ending First × World) :
    (andThen outcome fun result world ↦ (.value (change result), world)).2 = outcome.2 := by
  obtain ⟨ending, world⟩ := outcome
  cases ending <;> rfl

end Ending

/-! ### Histories -/

/-- What happens in a run of a program, given how requests are answered and what happens when they
are. -/
def Program.history (settings : Settings)
    (respond : {Answer : Type} → Request Answer → World → Ending Answer × World)
    (inside : {Answer : Type} → Request Answer → World → List Moment) :
    {Result : Type} → Program Result → World → List Moment
  | _, .done _, _ | _, .raise _, _ | _, .fault _, _ => []
  | _, .perform effect next, world =>
    ⟨.performs effect, world, (effect.answer settings world).2⟩ ::
      Ending.onward (effect.answer settings world) fun answer ↦
        (next answer).history settings respond inside
  | _, .ask request next, world =>
    inside request world ++ Ending.onward (respond request world) fun answer ↦
      (next answer).history settings respond inside
  | _, .attempt handler body next, world =>
    body.history settings respond inside world ++
      Ending.handledOnward handler (body.run settings respond world) fun result ↦
        (next result).history settings respond inside

namespace World

/-- What happens when a part of a run goes one level deeper, or is refused. -/
def deeperHistory {Result : Type} (settings : Settings) (world : World)
    (part : World → Ending Result × World) (history : World → List Moment) : List Moment :=
  if settings.limits.maxDepth ≤ world.depth then [⟨.refuses, world, world⟩]
  else
    let entered := { world with depth := world.depth + 1 }
    let reached := (part entered).2
    ⟨.enters, world, entered⟩ :: history entered ++
      [⟨.leaves, reached, { reached with depth := reached.depth - 1 }⟩]

/-- What happens when a call of a builtin function is reported. -/
def reportingHistory {Result : Type} (world : World) (builtin : BuiltinFunction) (count : Nat)
    (part : World → Ending Result × World) (history : World → List Moment) : List Moment :=
  let began := TraceEvent.builtinCall builtin.name count world.depth
  let outcome := part (world.observe began)
  let ended := TraceEvent.builtinReturn builtin.name outcome.1.isValue world.depth
  ⟨.reports began, world, world.observe began⟩ :: history (world.observe began) ++
    [⟨.reports ended, outcome.2, outcome.2.observe ended⟩]

end World

/-- What happens in the program of a call. -/
def Call.history (settings : Settings)
    (respond : {Answer : Type} → Request Answer → World → Ending Answer × World)
    (inside : {Answer : Type} → Request Answer → World → List Moment)
    (callable : Value) (arguments : Arguments) (world : World) : List Moment :=
  let program := Call.dispatch callable arguments
  match callable with
  | .builtin (.function builtin) =>
    world.reportingHistory builtin arguments.count (program.run settings respond)
      (program.history settings respond inside)
  | _ => program.history settings respond inside world

namespace Request

/-- The moment at which a request is made, before what happens for it. -/
def opening {Answer : Type} (happening : {Answer : Type} → Request Answer → World → List Moment)
    (request : Request Answer) (world : World) : List Moment :=
  ⟨.asks request, world, world⟩ :: happening request world

/-- What happens when a request is answered with a given patience. -/
def history (settings : Settings) : (patience : Nat) → {Answer : Type} → Request Answer → World →
    List Moment
  | 0, _, _, _ => []
  | patience + 1, _, .call callable arguments, world =>
    world.deeperHistory settings
      (Call.run settings (Request.answer settings patience) callable arguments)
      (Call.history settings (Request.answer settings patience)
        (opening (history settings patience)) callable arguments)
  | patience + 1, _, .runCode frame code, world =>
    world.deeperHistory settings
      ((Script.runCode frame code).run settings (Request.answer settings patience))
      ((Script.runCode frame code).history settings (Request.answer settings patience)
        (opening (history settings patience)))
  | patience + 1, _, .drain iterator, world =>
    (Operation.advance iterator).history settings (Request.answer settings patience)
        (opening (history settings patience)) world ++
      Ending.onward ((Operation.advance iterator).run settings (Request.answer settings patience)
        world) fun step world ↦
          match step with
          | .exhausted _ => []
          | .produced _ => history settings patience (.drain iterator) world

end Request

/-- What happens in a program that goes on after another one. -/
theorem Program.history_bind (settings : Settings)
    (respond : {Answer : Type} → Request Answer → World → Ending Answer × World)
    (inside : {Answer : Type} → Request Answer → World → List Moment)
    {First Second : Type} (program : Program First) (next : First → Program Second) :
    (program.bind next).history settings respond inside = fun world ↦
      program.history settings respond inside world ++
        Ending.onward (program.run settings respond world) fun result ↦
          (next result).history settings respond inside := by
  induction program with
  | done | raise | fault => rfl
  | perform effect continuation ih =>
    funext world
    simp only [Program.bind, Program.history, Program.run, ih, Ending.onward_append,
      Ending.onward_andThen, List.cons_append]
  | ask request continuation ih =>
    funext world
    simp only [Program.bind, Program.history, Program.run, ih, Ending.onward_append,
      Ending.onward_andThen, List.append_assoc]
  | attempt handler body continuation _ ih =>
    funext world
    simp only [Program.bind, Program.history, Program.run, ih, Ending.handledOnward_append,
      Ending.onward_handled, List.append_assoc]

section

variable {settings : Settings}
  {respond : {Answer : Type} → Request Answer → World → Ending Answer × World}
  {inside : {Answer : Type} → Request Answer → World → List Moment} {Answer Result : Type}
  {world reached : World}

/-- What happens after the first effect of a program comes last in the program. -/
theorem Program.suffix_history_perform {effect : Effect Answer} {next : Answer → Program Result}
    {answer : Answer} (hvalue : effect.answer settings world = (.value answer, reached)) :
    (next answer).history settings respond inside reached <:+
      (perform effect next).history settings respond inside world := by
  rw [history, hvalue]
  exact List.suffix_cons _ _

/-- What happens after the first request of a program comes last in the program. -/
theorem Program.suffix_history_ask {request : Request Answer} {next : Answer → Program Result}
    {answer : Answer} (hvalue : respond request world = (.value answer, reached)) :
    (next answer).history settings respond inside reached <:+
      (ask request next).history settings respond inside world := by
  rw [history, hvalue]
  exact List.suffix_append _ _

/-- What happens after the first step of a draining comes last in the draining. -/
theorem Request.suffix_history_drain {patience : Nat} {iterator item : Value}
    (hvalue : (Operation.advance iterator).run settings (Request.answer settings patience) world =
      (.value (.produced item), reached)) :
    Request.history settings patience (.drain iterator) reached <:+
      Request.history settings (patience + 1) (.drain iterator) world := by
  rw [history, hvalue]
  exact List.suffix_append _ _

end

/-! ### Histories leave nothing out -/

/-- Moments that lead from one world to another, each starting where the one before it ended. -/
inductive Linked (settings : Settings) : World → List Moment → World → Prop
  | nil (world : World) : Linked settings world [] world
  | cons (moment : Moment) {rest : List Moment} {final : World} (hstep : moment.IsStep settings)
      (hrest : Linked settings moment.after rest final) :
      Linked settings moment.before (moment :: rest) final

namespace Linked

variable {settings : Settings}

theorem append {world middle final : World} {first second : List Moment}
    (hfirst : Linked settings world first middle) (hsecond : Linked settings middle second final) :
    Linked settings world (first ++ second) final := by
  induction hfirst with
  | nil => exact hsecond
  | cons moment hstep _ ih => exact .cons moment hstep (ih hsecond)

/-- A single moment. -/
theorem singleton (moment : Moment) (hstep : moment.IsStep settings) :
    Linked settings moment.before [moment] moment.after :=
  .cons moment hstep (.nil _)

theorem onward {First Second : Type} {world : World} {moments : List Moment}
    {outcome : Ending First × World} {next : First → World → Ending Second × World}
    {later : First → World → List Moment} (hfirst : Linked settings world moments outcome.2)
    (hlater : ∀ result world, Linked settings world (later result world) (next result world).2) :
    Linked settings world (moments ++ Ending.onward outcome later)
      (Ending.andThen outcome next).2 := by
  refine hfirst.append ?_
  obtain ⟨ending, reached⟩ := outcome
  cases ending with
  | value result => exact hlater result reached
  | raised | fault | exhausted => exact .nil reached

theorem handledOnward {First Second : Type} {handler : Handler} {world : World}
    {moments : List Moment} {outcome : Ending First × World}
    {next : Except Exception First → World → Ending Second × World}
    {later : Except Exception First → World → List Moment}
    (hfirst : Linked settings world moments outcome.2)
    (hlater : ∀ result world, Linked settings world (later result world) (next result world).2) :
    Linked settings world (moments ++ Ending.handledOnward handler outcome later)
      (Ending.handled handler outcome next).2 := by
  refine hfirst.append ?_
  obtain ⟨ending, reached⟩ := outcome
  cases ending with
  | value result => exact hlater (.ok result) reached
  | raised exception =>
    by_cases htaken : handler.takes exception = true
    · simp only [Ending.handledOnward, Ending.handled, if_pos htaken]
      exact hlater (.error exception) reached
    · simp only [Ending.handledOnward, Ending.handled, if_neg htaken]
      exact .nil reached
  | fault | exhausted => exact .nil reached

theorem deeper {Result : Type} {part : World → Ending Result × World}
    {history : World → List Moment}
    (hpart : ∀ world, Linked settings world (history world) (part world).2) (world : World) :
    Linked settings world (world.deeperHistory settings part history)
      (world.deeper settings part).2 := by
  unfold World.deeperHistory World.deeper
  by_cases hlimit : settings.limits.maxDepth ≤ world.depth
  · rw [if_pos hlimit, if_pos hlimit]
    exact singleton ⟨.refuses, world, world⟩ rfl
  · rw [if_neg hlimit, if_neg hlimit]
    exact append (cons ⟨.enters, world, _⟩ rfl (hpart _))
      (singleton ⟨.leaves, _, _⟩ rfl)

theorem reporting {Result : Type} {part : World → Ending Result × World}
    {history : World → List Moment}
    (hpart : ∀ world, Linked settings world (history world) (part world).2)
    (builtin : BuiltinFunction) (count : Nat) (world : World) :
    Linked settings world (world.reportingHistory builtin count part history)
      (world.reporting builtin count part).2 :=
  append (cons ⟨.reports _, world, _⟩ rfl (hpart _))
    (singleton ⟨.reports _, _, _⟩ rfl)

end Linked

section

variable (settings : Settings)
  {respond : {Answer : Type} → Request Answer → World → Ending Answer × World}
  {inside : {Answer : Type} → Request Answer → World → List Moment}

/-- The history of a program leads to where its run does, if that of each request does. -/
theorem Program.linked_history
    (hinside : ∀ {Answer : Type} (request : Request Answer) (world : World),
      Linked settings world (inside request world) (respond request world).2)
    {Result : Type} (program : Program Result) (world : World) :
    Linked settings world (program.history settings respond inside world)
      (program.run settings respond world).2 := by
  induction program generalizing world with
  | done | raise | fault => exact .nil world
  | perform effect next ih =>
    exact Linked.onward
      (Linked.singleton ⟨.performs effect, world, (effect.answer settings world).2⟩ rfl)
      ih
  | ask request next ih => exact Linked.onward (hinside request world) ih
  | attempt handler body next ihbody ihnext => exact Linked.handledOnward (ihbody world) ihnext

theorem Call.linked_history
    (hinside : ∀ {Answer : Type} (request : Request Answer) (world : World),
      Linked settings world (inside request world) (respond request world).2)
    (callable : Value) (arguments : Arguments) (world : World) :
    Linked settings world (Call.history settings respond inside callable arguments world)
      (Call.run settings respond callable arguments world).2 := by
  have hprogram := Program.linked_history settings hinside (Call.dispatch callable arguments)
  cases callable with
  | builtin builtin =>
    cases builtin with
    | function builtin => exact Linked.reporting hprogram builtin arguments.count world
    | type | exception => exact hprogram world
  | _ => exact hprogram world

/-- The history of a request leads to the world of its answer. -/
theorem Request.linked_history (patience : Nat) {Answer : Type} (request : Request Answer)
    (world : World) :
    Linked settings world (request.history settings patience world)
      (request.answer settings patience world).2 := by
  induction patience generalizing Answer request world with
  | zero => exact .nil world
  | succ patience ih =>
    have hinside : ∀ {Answer : Type} (request : Request Answer) (world : World),
        Linked settings world (Request.opening (Request.history settings patience) request world)
          (request.answer settings patience world).2 := fun request world ↦
      Linked.append (Linked.singleton ⟨.asks request, world, world⟩ rfl)
        (ih request world)
    cases request with
    | call callable arguments =>
      exact Linked.deeper (Call.linked_history settings hinside callable arguments) world
    | runCode frame code =>
      exact Linked.deeper (Program.linked_history settings hinside (Script.runCode frame code))
        world
    | drain iterator =>
      refine Linked.onward (Program.linked_history settings hinside (Operation.advance iterator)
        world) fun step reached ↦ ?_
      cases step with
      | exhausted => exact .nil reached
      | produced item =>
        simp only [Ending.andThen_world (List.cons item)]
        exact ih (.drain iterator) reached

end

end Metaobject
