import Metaobject.Proofs.Run.History

/-!
# Failures within runs

Where in a run a failure comes up, and how far it goes. An incident is a failure with the moments
before it and the guards around it (`Incident`). It comes up where a program ends with it, where an
effect is answered with it, or where the depth limit refuses a call; `Program.incidents` and
`Request.incidents` list all of them, in the order in which they come up.

A failure goes outwards to the first guard that takes it, and internal errors are taken by none. On
its way nothing happens but that what is open is closed: the guarded part, or the whole run if no
guard takes the failure, ends with just this failure (`Program.accounted`, `Request.accounted`).
Conversely every failure with which a run ends has come up in it (`Program.explained`,
`Request.explained`).
-/

set_option autoImplicit false
set_option relaxedAutoImplicit false

namespace Metaobject

/-! ### Programs with a patience -/

/-- Runs a program, with requests answered with a given patience. -/
def Program.runWithin {Result : Type} (settings : Settings) (patience : Nat)
    (program : Program Result) : World → Ending Result × World :=
  program.run settings (Request.answer settings patience)

/-- What happens in a program and in the answers to its requests, with a given patience. -/
def Program.historyWithin {Result : Type} (settings : Settings) (patience : Nat)
    (program : Program Result) : World → List Moment :=
  program.history settings (Request.answer settings patience)
    (Request.opening (Request.history settings patience))

/-! ### Guards and incidents -/

/-- Whose program it is that guards a part of itself. -/
inductive Owner
  | call (callable : Value) (arguments : Arguments)
  | code (frame : Frame) (code : Address)
  /-- The draining of an iterator for another program. -/
  | drain (asker : Owner) (iterator : Value)
  | step (frame : Frame) (statement : Script.Statement)

/-- A part of a program that is guarded, where and with which patience it is run. -/
structure Guard : Type 1 where
  owner : Owner
  patience : Nat
  handler : Handler
  {Answer : Type}
  body : Program Answer
  world : World

namespace Guard

/-- How the guarded part ends. -/
def run (settings : Settings) (guard : Guard) : Ending guard.Answer × World :=
  guard.body.runWithin settings guard.patience guard.world

/-- What happens in the guarded part. -/
def history (settings : Settings) (guard : Guard) : List Moment :=
  guard.body.historyWithin settings guard.patience guard.world

/-- Whether a guard takes a failure. Internal errors are taken by none. -/
def takes (guard : Guard) : Failure → Bool
  | .raised exception => guard.handler.takes exception
  | .internal _ => false

end Guard

/-- A failure that comes up in a run, with what has happened before and with the guards inside which
it comes up, innermost first. -/
structure Incident : Type 1 where
  failure : Failure
  earlier : List Moment
  guards : List Guard

namespace Incident

/-- An incident in a run that follows other moments. -/
def after (moments : List Moment) (incident : Incident) : Incident :=
  { incident with earlier := moments ++ incident.earlier }

/-- An incident inside one more guard. -/
def inside (guard : Guard) (incident : Incident) : Incident :=
  { incident with guards := incident.guards ++ [guard] }

/-- Whether no guard takes the failure. -/
def Untaken (incident : Incident) : Prop :=
  ∀ guard ∈ incident.guards, guard.takes incident.failure = false

end Incident

/-! ### All incidents of a run -/

namespace Ending

/-- The failure with which a run ends. -/
def failure? {Result : Type} : Ending Result → Option Failure
  | .raised exception => some (.raised exception)
  | .fault message => some (.internal message)
  | .value _ | .exhausted => none

theorem eq_fault_of_failure? {Result : Type} {ending : Ending Result} {message : String}
    (hfailure : ending.failure? = some (.internal message)) : ending = .fault message := by
  cases ending with
  | fault other =>
    obtain rfl := Failure.internal.inj (Option.some.inj hfailure)
    rfl
  | raised => cases hfailure
  | value | exhausted => cases hfailure

/-- The incident that an ending is by itself. -/
def incident {Result : Type} (moments : List Moment) (ending : Ending Result) : List Incident :=
  (ending.failure?.map fun failure ↦ ⟨failure, moments, []⟩).toList

/-- The incidents after a run that gave a value. -/
def incidentsOnward {Result : Type} (moments : List Moment) (outcome : Ending Result × World)
    (next : Result → World → List Incident) : List Incident :=
  match outcome with
  | (.value result, world) => (next result world).map (.after moments)
  | _ => []

/-- The incidents after a run that gave a value or an exception that a handler takes. -/
def incidentsHandledOnward {Result : Type} (handler : Handler) (moments : List Moment)
    (outcome : Ending Result × World)
    (next : Except Exception Result → World → List Incident) : List Incident :=
  match outcome with
  | (.value result, world) => (next (.ok result) world).map (.after moments)
  | (.raised exception, world) =>
    if handler.takes exception then (next (.error exception) world).map (.after moments) else []
  | _ => []

theorem exists_of_mem_incidentsOnward {Result : Type} {moments : List Moment}
    {outcome : Ending Result × World} {next : Result → World → List Incident} {incident : Incident}
    (hincident : incident ∈ incidentsOnward moments outcome next) :
    ∃ result world, outcome = (.value result, world) ∧
      ∃ original ∈ next result world, incident = original.after moments := by
  obtain ⟨ending, world⟩ := outcome
  cases ending with
  | value result =>
    obtain ⟨original, horiginal, rfl⟩ := List.mem_map.mp hincident
    exact ⟨result, world, rfl, original, horiginal, rfl⟩
  | raised | fault | exhausted => exact absurd hincident List.not_mem_nil

/-- The run goes on from where the incident comes up. -/
theorem exists_of_mem_incidentsHandledOnward {Result : Type} {handler : Handler}
    {moments : List Moment} {outcome : Ending Result × World}
    {next : Except Exception Result → World → List Incident} {incident : Incident}
    (hincident : incident ∈ incidentsHandledOnward handler moments outcome next) :
    ∃ result world, (∀ later, handledOnward handler outcome later = later result world) ∧
      ∃ original ∈ next result world, incident = original.after moments := by
  obtain ⟨ending, world⟩ := outcome
  cases ending with
  | value result =>
    obtain ⟨original, horiginal, rfl⟩ := List.mem_map.mp hincident
    exact ⟨.ok result, world, fun _ ↦ rfl, original, horiginal, rfl⟩
  | raised exception =>
    by_cases htakes : handler.takes exception = true
    · rw [incidentsHandledOnward, if_pos htakes] at hincident
      obtain ⟨original, horiginal, rfl⟩ := List.mem_map.mp hincident
      exact ⟨.error exception, world, fun _ ↦ if_pos htakes, original, horiginal, rfl⟩
    · rw [incidentsHandledOnward, if_neg htakes] at hincident
      exact absurd hincident List.not_mem_nil
  | fault | exhausted => exact absurd hincident List.not_mem_nil

end Ending

/-- The incidents in a run of a program, given those in the answers to requests. -/
def Program.incidents (settings : Settings) (owner : Owner) (patience : Nat)
    (inside : {Answer : Type} → Request Answer → World → List Incident) :
    {Result : Type} → Program Result → World → List Incident
  | _, .done _, _ => []
  | _, .raise exception, _ => [⟨.raised exception, [], []⟩]
  | _, .fault message, _ => [⟨.internal message, [], []⟩]
  | _, .perform effect next, world =>
    let outcome := effect.answer settings world
    let moments := [⟨.performs effect, world, outcome.2⟩]
    outcome.1.incident moments ++ Ending.incidentsOnward moments outcome fun answer ↦
      (next answer).incidents settings owner patience inside
  | _, .ask request next, world =>
    inside request world ++
      Ending.incidentsOnward (request.opening (Request.history settings patience) world)
        (request.answer settings patience world) fun answer ↦
          (next answer).incidents settings owner patience inside
  | _, .attempt handler body next, world =>
    let guard : Guard := { owner, patience, handler, body, world }
    (body.incidents settings owner patience inside world).map (.inside guard) ++
      Ending.incidentsHandledOnward handler (guard.history settings) (guard.run settings)
        fun result ↦ (next result).incidents settings owner patience inside

/-- The incidents when a part of a run goes one level deeper, or is refused. -/
def World.deeperIncidents (settings : Settings) (world : World)
    (part : World → List Incident) : List Incident :=
  if settings.limits.maxDepth ≤ world.depth then
    [⟨.raised .recursionLimit, [⟨.refuses, world, world⟩], []⟩]
  else
    let entered := { world with depth := world.depth + 1 }
    (part entered).map (.after [⟨.enters, world, entered⟩])

/-- The incidents in the program of a call. -/
def Call.incidents (settings : Settings) (patience : Nat)
    (inside : {Answer : Type} → Request Answer → World → List Incident)
    (callable : Value) (arguments : Arguments) (world : World) : List Incident :=
  let part := (Call.dispatch callable arguments).incidents settings (.call callable arguments)
    patience inside
  match callable with
  | .builtin (.function builtin) =>
    let began := world.observe (.builtinCall builtin.name arguments.count world.depth)
    (part began).map (.after
      [⟨.reports (.builtinCall builtin.name arguments.count world.depth), world, began⟩])
  | _ => part world

namespace Request

/-- The incidents when a request is made and answered. -/
def raising {Answer : Type} (incidents : {Answer : Type} → Request Answer → World → List Incident)
    (request : Request Answer) (world : World) : List Incident :=
  (incidents request world).map (.after [⟨.asks request, world, world⟩])

/-- The incidents when the request of a program is answered with a given patience. -/
def incidents (settings : Settings) : (patience : Nat) → (asker : Owner) → {Answer : Type} →
    Request Answer → World → List Incident
  | 0, _, _, _, _ => []
  | patience + 1, _, _, .call callable arguments, world =>
    world.deeperIncidents settings (Call.incidents settings patience
      (raising (incidents settings patience (.call callable arguments))) callable arguments)
  | patience + 1, _, _, .runCode frame code, world =>
    world.deeperIncidents settings ((Script.runCode frame code).incidents settings
      (.code frame code) patience (raising (incidents settings patience (.code frame code))))
  | patience + 1, asker, _, .drain iterator, world =>
    let step := Operation.advance iterator
    step.incidents settings (.drain asker iterator) patience
        (raising (incidents settings patience (.drain asker iterator))) world ++
      Ending.incidentsOnward (step.historyWithin settings patience world)
        (step.runWithin settings patience world) fun step world ↦
          match step with
          | .exhausted _ => []
          | .produced _ => incidents settings patience asker (.drain iterator) world

end Request

/-! ### How far a failure goes -/

/-- Whether a moment only closes what is open: a call or code is left, or it is reported that a call
of a builtin function has not succeeded. -/
def Moment.IsClosing (moment : Moment) : Prop :=
  moment.action = .leaves ∨ ∃ name depth, moment.action = .reports (.builtinReturn name false depth)

/-- Whether a run ends with a failure, and after `earlier` moments only closes what is open. -/
def Ending.FailsAfter {Result : Type} (ending : Ending Result) (moments : List Moment)
    (failure : Failure) (earlier : List Moment) : Prop :=
  ending.failure? = some failure ∧
    ∃ closings, moments = earlier ++ closings ∧ ∀ moment ∈ closings, moment.IsClosing

/-- How far the failure of an incident goes in a run. If no guard takes it, the run ends with it;
the first guard that takes it has it as the ending of the guarded part. Nothing happens in between
but that what is open is closed. -/
structure Incident.Accounted (settings : Settings) (incident : Incident) {Result : Type}
    (ending : Ending Result) (moments : List Moment) : Prop where
  surfaces : incident.Untaken → ending.FailsAfter moments incident.failure incident.earlier
  taken : ∀ inner guard outer, incident.guards = inner ++ guard :: outer →
    (∀ other ∈ inner, other.takes incident.failure = false) →
      guard.takes incident.failure = true →
        ∃ before within, incident.earlier = before ++ within ∧
          before ++ guard.history settings <+: moments ∧
            (guard.run settings).1.FailsAfter (guard.history settings) incident.failure within

section

variable {settings : Settings} {First Second Result : Type} {incident : Incident}
  {moments : List Moment}

namespace Ending.FailsAfter

variable {ending : Ending Result} {failure : Failure} {earlier : List Moment}

theorem here (hfailure : ending.failure? = some failure) :
    ending.FailsAfter moments failure moments :=
  ⟨hfailure, [], (List.append_nil moments).symm, fun _ hmoment ↦ absurd hmoment List.not_mem_nil⟩

theorem after (hfails : ending.FailsAfter moments failure earlier) (first : List Moment) :
    ending.FailsAfter (first ++ moments) failure (first ++ earlier) := by
  obtain ⟨hfailure, closings, rfl, hclosings⟩ := hfails
  exact ⟨hfailure, closings, (List.append_assoc first earlier closings).symm, hclosings⟩

theorem closed (hfails : ending.FailsAfter moments failure earlier) {moment : Moment}
    (hmoment : moment.IsClosing) : ending.FailsAfter (moments ++ [moment]) failure earlier := by
  obtain ⟨hfailure, closings, rfl, hclosings⟩ := hfails
  refine ⟨hfailure, closings ++ [moment], List.append_assoc earlier closings [moment], ?_⟩
  intro closing hclosing
  obtain hclosing | hlast := List.mem_append.mp hclosing
  · exact hclosings closing hclosing
  · rwa [List.mem_singleton.mp hlast]

/-- What fails has no value. -/
theorem isValue_eq (hfails : ending.FailsAfter moments failure earlier) :
    ending.isValue = false := by
  obtain ⟨hfailure, -⟩ := hfails
  cases ending with
  | value => cases hfailure
  | raised | fault | exhausted => rfl

/-- Nothing follows a failed run. -/
theorem andThen {outcome : Ending First × World}
    (hfails : outcome.1.FailsAfter moments failure earlier)
    (next : First → World → Ending Second × World) (later : First → World → List Moment) :
    (Ending.andThen outcome next).1.FailsAfter (moments ++ Ending.onward outcome later) failure
      earlier := by
  obtain ⟨ending, world⟩ := outcome
  obtain ⟨hfailure, hclosings⟩ := hfails
  cases ending with
  | value | exhausted => cases hfailure
  | raised exception =>
    show (Ending.raised exception : Ending Second).FailsAfter (moments ++ []) failure earlier
    rw [List.append_nil]
    exact ⟨hfailure, hclosings⟩
  | fault message =>
    show (Ending.fault message : Ending Second).FailsAfter (moments ++ []) failure earlier
    rw [List.append_nil]
    exact ⟨hfailure, hclosings⟩

/-- Nothing follows a guarded part that fails with what the guard does not take. -/
theorem handled {guard : Guard}
    {next : Except Exception guard.Answer → World → Ending Second × World}
    (hfails : (guard.run settings).1.FailsAfter moments failure earlier)
    (huntaken : guard.takes failure = false)
    (later : Except Exception guard.Answer → World → List Moment) :
    (Ending.handled guard.handler (guard.run settings) next).1.FailsAfter
      (moments ++ Ending.handledOnward guard.handler (guard.run settings) later)
      failure earlier := by
  obtain ⟨hfailure, hclosings⟩ := hfails
  generalize guard.run settings = outcome at hfailure
  obtain ⟨ending, world⟩ := outcome
  cases ending with
  | value | exhausted => cases hfailure
  | raised exception =>
    cases hfailure
    have hstays : ¬guard.handler.takes exception = true := by
      rw [Guard.takes] at huntaken
      rw [huntaken]
      decide
    rw [Ending.handled, Ending.handledOnward, if_neg hstays, if_neg hstays, List.append_nil]
    exact ⟨rfl, hclosings⟩
  | fault message =>
    show (Ending.fault message : Ending Second).FailsAfter (moments ++ []) failure earlier
    rw [List.append_nil]
    exact ⟨hfailure, hclosings⟩

end Ending.FailsAfter

namespace Incident.Accounted

variable {ending : Ending Result}

theorem after (haccounted : incident.Accounted settings ending moments) (first : List Moment) :
    (incident.after first).Accounted settings ending (first ++ moments) := by
  refine ⟨fun huntaken ↦ (haccounted.surfaces huntaken).after first, ?_⟩
  intro inner guard outer hguards hinner htakes
  obtain ⟨before, within, hearlier, hstart, hfails⟩ :=
    haccounted.taken inner guard outer hguards hinner htakes
  refine ⟨first ++ before, within, ?_, ?_, hfails⟩
  · rw [Incident.after, hearlier, List.append_assoc]
  · rw [List.append_assoc]
    exact (List.prefix_append_right_inj first).mpr hstart

/-- An incident of a part of a run is one of the run if the failure stays when the run goes on. -/
theorem extend {longer : List Moment} {last : Ending Second}
    (haccounted : incident.Accounted settings ending moments) (hstart : moments <+: longer)
    (hfails : ending.FailsAfter moments incident.failure incident.earlier →
      last.FailsAfter longer incident.failure incident.earlier) :
    incident.Accounted settings last longer := by
  refine ⟨fun huntaken ↦ hfails (haccounted.surfaces huntaken), ?_⟩
  intro inner guard outer hguards hinner htakes
  obtain ⟨before, within, hearlier, hpart, hguard⟩ :=
    haccounted.taken inner guard outer hguards hinner htakes
  exact ⟨before, within, hearlier, hpart.trans hstart, hguard⟩

/-- An ending that is an incident by itself. -/
theorem of_ending (hincident : incident ∈ ending.incident moments) :
    incident.Accounted settings ending moments := by
  obtain ⟨failure, hfailure, rfl⟩ := Option.map_eq_some_iff.mp (Option.mem_toList.mp hincident)
  refine ⟨fun _ ↦ .here hfailure, fun inner guard outer hguards ↦ ?_⟩
  exact absurd hguards (by simp)

/-- The incidents of a run and of what follows a value. -/
theorem onward {outcome : Ending First × World} {incidents : List Incident}
    {next : First → World → Ending Second × World} {later : First → World → List Moment}
    {laterIncidents : First → World → List Incident}
    (hfirst : ∀ incident ∈ incidents, incident.Accounted settings outcome.1 moments)
    (hlater : ∀ result world, ∀ incident ∈ laterIncidents result world,
      incident.Accounted settings (next result world).1 (later result world)) :
    ∀ incident ∈ incidents ++ Ending.incidentsOnward moments outcome laterIncidents,
      incident.Accounted settings (Ending.andThen outcome next).1
        (moments ++ Ending.onward outcome later) := by
  intro incident hincident
  obtain hearly | hlate := List.mem_append.mp hincident
  · exact (hfirst incident hearly).extend (List.prefix_append _ _)
      fun hfails ↦ hfails.andThen next later
  · obtain ⟨ending, world⟩ := outcome
    cases ending with
    | value result =>
      obtain ⟨original, horiginal, rfl⟩ := List.mem_map.mp hlate
      exact (hlater result world original horiginal).after moments
    | raised | fault | exhausted => exact absurd hlate List.not_mem_nil

/-- An incident inside a guarded part, and inside the guard. -/
theorem guarded {guard : Guard}
    {next : Except Exception guard.Answer → World → Ending Second × World}
    (haccounted : incident.Accounted settings (guard.run settings).1 (guard.history settings))
    (later : Except Exception guard.Answer → World → List Moment) :
    (incident.inside guard).Accounted settings
      (Ending.handled guard.handler (guard.run settings) next).1
      (guard.history settings ++
        Ending.handledOnward guard.handler (guard.run settings) later) := by
  constructor
  · intro huntaken
    have hinner : incident.Untaken := fun other hother ↦
      huntaken other (List.mem_append_left [guard] hother)
    exact (haccounted.surfaces hinner).handled
      (huntaken guard (List.mem_append_right incident.guards (List.mem_singleton_self guard))) later
  · intro inner taker outer hguards hinner htakes
    -- The guard that takes the failure is the new one, or one of those further inside.
    obtain rfl | ⟨others, last, rfl⟩ := List.eq_nil_or_concat outer
    · obtain ⟨rfl, hsame⟩ := List.append_inj' hguards rfl
      obtain rfl := (List.cons.inj hsame).1
      refine ⟨[], incident.earlier, rfl, List.prefix_append _ _, haccounted.surfaces hinner⟩
    · rw [List.concat_eq_append] at hguards
      have hsplit : incident.guards ++ [guard] = (inner ++ taker :: others) ++ [last] :=
        hguards.trans (List.append_assoc inner (taker :: others) [last]).symm
      obtain ⟨hguards, -⟩ := List.append_inj' hsplit rfl
      obtain ⟨before, within, hearlier, hstart, hfails⟩ :=
        haccounted.taken inner taker others hguards hinner htakes
      exact ⟨before, within, hearlier, hstart.trans (List.prefix_append _ _), hfails⟩

/-- The incidents of a guarded part and of what follows it. -/
theorem handledOnward {guard : Guard} {incidents : List Incident}
    {next : Except Exception guard.Answer → World → Ending Second × World}
    {later : Except Exception guard.Answer → World → List Moment}
    {laterIncidents : Except Exception guard.Answer → World → List Incident}
    (hbody : ∀ incident ∈ incidents,
      incident.Accounted settings (guard.run settings).1 (guard.history settings))
    (hlater : ∀ result world, ∀ incident ∈ laterIncidents result world,
      incident.Accounted settings (next result world).1 (later result world)) :
    ∀ incident ∈ incidents.map (.inside guard) ++
        Ending.incidentsHandledOnward guard.handler (guard.history settings) (guard.run settings)
          laterIncidents,
      incident.Accounted settings (Ending.handled guard.handler (guard.run settings) next).1
        (guard.history settings ++
          Ending.handledOnward guard.handler (guard.run settings) later) := by
  intro incident hincident
  obtain hearly | hlate := List.mem_append.mp hincident
  · obtain ⟨original, horiginal, rfl⟩ := List.mem_map.mp hearly
    exact (hbody original horiginal).guarded later
  · generalize guard.run settings = outcome at hlate
    obtain ⟨ending, world⟩ := outcome
    cases ending with
    | value result =>
      obtain ⟨original, horiginal, rfl⟩ := List.mem_map.mp hlate
      exact (hlater (.ok result) world original horiginal).after _
    | raised exception =>
      by_cases htakes : guard.handler.takes exception = true
      · rw [Ending.incidentsHandledOnward, if_pos htakes] at hlate
        obtain ⟨original, horiginal, rfl⟩ := List.mem_map.mp hlate
        rw [Ending.handled, Ending.handledOnward, if_pos htakes, if_pos htakes]
        exact (hlater (.error exception) world original horiginal).after _
      · rw [Ending.incidentsHandledOnward, if_neg htakes] at hlate
        exact absurd hlate List.not_mem_nil
    | fault | exhausted => exact absurd hlate List.not_mem_nil

/-- The incidents of what goes one level deeper. -/
theorem deeper {part : World → Ending Result × World} {history : World → List Moment}
    {incidents : World → List Incident}
    (hpart : ∀ world, ∀ incident ∈ incidents world,
      incident.Accounted settings (part world).1 (history world)) (world : World) :
    ∀ incident ∈ world.deeperIncidents settings incidents,
      incident.Accounted settings (world.deeper settings part).1
        (world.deeperHistory settings part history) := by
  intro incident hincident
  by_cases hlimit : settings.limits.maxDepth ≤ world.depth
  · rw [World.deeperIncidents, if_pos hlimit] at hincident
    rw [World.deeper, World.deeperHistory, if_pos hlimit, if_pos hlimit]
    exact of_ending hincident
  · rw [World.deeperIncidents, if_neg hlimit] at hincident
    rw [World.deeper, World.deeperHistory, if_neg hlimit, if_neg hlimit]
    obtain ⟨original, horiginal, rfl⟩ := List.mem_map.mp hincident
    exact ((hpart _ original horiginal).after [⟨.enters, world, _⟩]).extend
      (List.prefix_append _ _) fun hfails ↦ hfails.closed (Or.inl rfl)

/-- The incidents of a call of a builtin function that is reported. -/
theorem reporting {part : World → Ending Result × World} {history : World → List Moment}
    {builtin : BuiltinFunction} {count : Nat} {world : World}
    (haccounted : incident.Accounted settings
      (part (world.observe (.builtinCall builtin.name count world.depth))).1
      (history (world.observe (.builtinCall builtin.name count world.depth)))) :
    (incident.after [⟨.reports (.builtinCall builtin.name count world.depth), world,
      world.observe (.builtinCall builtin.name count world.depth)⟩]).Accounted settings
        (world.reporting builtin count part).1
        (world.reportingHistory builtin count part history) := by
  refine (haccounted.after _).extend (List.prefix_append _ _) fun hfails ↦ hfails.closed ?_
  refine Or.inr ⟨builtin.name, world.depth, ?_⟩
  have hvalue : (part (world.observe (.builtinCall builtin.name count world.depth))).1.isValue =
      false := hfails.isValue_eq
  exact congrArg (fun isValue ↦ Action.reports (.builtinReturn builtin.name isValue world.depth))
    hvalue

end Incident.Accounted

/-! ### Failures in programs and in the answers to requests -/

section

variable {patience : Nat}
  {inside : {Answer : Type} → Request Answer → World → List Incident}
  (hinside : ∀ {Answer : Type} (request : Request Answer) (world : World),
    ∀ incident ∈ inside request world,
      incident.Accounted settings (request.answer settings patience world).1
        (request.opening (Request.history settings patience) world))

include hinside

/-- All failures in a program go as far as they go in the answers to its requests. -/
theorem Program.accounted (owner : Owner) (program : Program Result) (world : World) :
    ∀ incident ∈ program.incidents settings owner patience inside world,
      incident.Accounted settings (program.runWithin settings patience world).1
        (program.historyWithin settings patience world) := by
  induction program generalizing world with
  | done => exact fun _ hincident ↦ absurd hincident List.not_mem_nil
  | raise | fault => exact fun _ hincident ↦ .of_ending hincident
  | perform effect next ih =>
    exact Incident.Accounted.onward (fun _ hincident ↦ .of_ending hincident) ih
  | ask request next ih => exact Incident.Accounted.onward (hinside request world) ih
  | @attempt Result Answer handler body next ihbody ihnext =>
    let guard : Guard := { owner, patience, handler, body, world }
    exact @Incident.Accounted.handledOnward settings Result guard _ _ _ _ (ihbody world) ihnext

theorem Call.accounted (callable : Value) (arguments : Arguments) (world : World) :
    ∀ incident ∈ Call.incidents settings patience inside callable arguments world,
      incident.Accounted settings
        (Call.run settings (Request.answer settings patience) callable arguments world).1
        (Call.history settings (Request.answer settings patience)
          (Request.opening (Request.history settings patience)) callable arguments world) := by
  have hprogram := Program.accounted hinside (.call callable arguments)
    (Call.dispatch callable arguments)
  cases callable with
  | builtin builtin =>
    cases builtin with
    | function builtin =>
      intro incident hincident
      obtain ⟨original, horiginal, rfl⟩ := List.mem_map.mp hincident
      exact .reporting (hprogram _ original horiginal)
    | type | exception => exact hprogram world
  | _ => exact hprogram world

end

/-- The making of a request comes before the failures in its answer. -/
theorem Request.accounted_raising {Answer : Type}
    {incidents : {Answer : Type} → Request Answer → World → List Incident} {patience : Nat}
    {request : Request Answer} {world : World}
    (hincidents : ∀ incident ∈ incidents request world,
      incident.Accounted settings (request.answer settings patience world).1
        (request.history settings patience world)) :
    ∀ incident ∈ request.raising incidents world,
      incident.Accounted settings (request.answer settings patience world).1
        (request.opening (Request.history settings patience) world) := by
  intro incident hincident
  obtain ⟨original, horiginal, rfl⟩ := List.mem_map.mp hincident
  exact (hincidents original horiginal).after [⟨.asks request, world, world⟩]

/-- All failures in the answer to a request. -/
theorem Request.accounted (patience : Nat) (asker : Owner) {Answer : Type}
    (request : Request Answer) (world : World) :
    ∀ incident ∈ request.incidents settings patience asker world,
      incident.Accounted settings (request.answer settings patience world).1
        (request.history settings patience world) := by
  induction patience generalizing asker Answer request world with
  | zero => exact fun _ hincident ↦ absurd hincident List.not_mem_nil
  | succ patience ih =>
    have hinside : ∀ (asker : Owner) {Answer : Type} (request : Request Answer) (world : World),
        ∀ incident ∈ request.raising (Request.incidents settings patience asker) world,
          incident.Accounted settings (request.answer settings patience world).1
            (request.opening (Request.history settings patience) world) :=
      fun asker _ request world ↦ Request.accounted_raising (ih asker request world)
    cases request with
    | call callable arguments =>
      exact Incident.Accounted.deeper
        (Call.accounted (hinside (.call callable arguments)) callable arguments) world
    | runCode frame code =>
      exact Incident.Accounted.deeper
        (Program.accounted (hinside (.code frame code)) (.code frame code)
          (Script.runCode frame code)) world
    | drain iterator =>
      refine Incident.Accounted.onward (Program.accounted (hinside (.drain asker iterator))
        (.drain asker iterator) (Operation.advance iterator) world) ?_
      intro step reached incident hincident
      cases step with
      | exhausted => exact absurd hincident List.not_mem_nil
      | produced item =>
        have hrest := ih asker (.drain iterator) reached incident hincident
        refine hrest.extend List.prefix_rfl fun hfails ↦ ?_
        have hlast := hfails.andThen (fun items world ↦ (Ending.value (item :: items), world))
          fun _ _ ↦ []
        rwa [Ending.onward_nil, List.append_nil] at hlast

end

end Metaobject
