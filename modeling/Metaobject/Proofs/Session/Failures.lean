import Metaobject.Proofs.Obedience.Guards
import Metaobject.Proofs.Run.Origins
import Metaobject.Proofs.Run.Reachable

/-!
# Failures in sessions

What becomes of every failure that comes up in a step of a session (`Session.failures_surface`). An
internal error is the answer of the step, and an exception goes unchanged to the first of a few
points that takes it, or else is the answer of the step; until then nothing happens but that what is
open is closed. What the points do with the exceptions that they take is stated by
`Recoveries`.
-/

set_option autoImplicit false
set_option relaxedAutoImplicit false

namespace Metaobject

/-! ### Going on after an exception -/

/-- Whether a program goes on with `recovery` right where a part of it ends with an exception that a
handler takes: the part is all that has happened before. -/
def Program.Recovers {Part Result : Type} (settings : Settings) (program : Program Result)
    (part : Program Part) (handler : Handler) (recovery : Exception → Program Result) : Prop :=
  ∀ patience world exception reached,
    part.runWithin settings patience world = (.raised exception, reached) →
      handler.takes exception = true →
        program.runWithin settings patience world =
            (recovery exception).runWithin settings patience reached ∧
          program.historyWithin settings patience world =
            part.historyWithin settings patience world ++
              (recovery exception).historyWithin settings patience reached

theorem Program.recovers_attempt {Part Result : Type} (settings : Settings) (handler : Handler)
    (part : Program Part) (next : Except Exception Part → Program Result) :
    (Program.attempt handler part next).Recovers settings part handler
      fun exception ↦ next (.error exception) := by
  intro patience world exception reached hpart htakes
  constructor
  · show Ending.handled handler (part.runWithin settings patience world)
      (fun result ↦ (next result).runWithin settings patience) = _
    rw [hpart, Ending.handled, if_pos htakes]
  · show part.historyWithin settings patience world ++
      Ending.handledOnward handler (part.runWithin settings patience world)
        (fun result ↦ (next result).historyWithin settings patience) = _
    rw [hpart, Ending.handledOnward, if_pos htakes]

theorem Program.Recovers.bind {Part First Second : Type} {settings : Settings}
    {program : Program First} {part : Program Part} {handler : Handler}
    {recovery : Exception → Program First}
    (hrecovers : program.Recovers settings part handler recovery)
    (later : First → Program Second) :
    (program >>= later).Recovers settings part handler fun exception ↦
      recovery exception >>= later := by
  intro patience world exception reached hpart htakes
  obtain ⟨hrun, hhistory⟩ := hrecovers patience world exception reached hpart htakes
  have hbind : ∀ first : Program First, (first >>= later).runWithin settings patience = fun world ↦
      Ending.andThen (first.runWithin settings patience world) fun result ↦
        (later result).runWithin settings patience := fun first ↦ Program.run_bind _ _ first later
  have hhistoryBind : ∀ first : Program First, (first >>= later).historyWithin settings patience =
      fun world ↦ first.historyWithin settings patience world ++
        Ending.onward (first.runWithin settings patience world) fun result ↦
          (later result).historyWithin settings patience :=
    fun first ↦ Program.history_bind _ _ _ first later
  constructor
  · rw [hbind, hbind]
    exact congrArg (Ending.andThen · _) hrun
  · rw [hhistoryBind, hhistoryBind]
    dsimp only
    rw [hrun, hhistory, List.append_assoc]

/-- What becomes of the exceptions that are taken at the points. -/
structure Recoveries (settings : Settings) : Prop where
  /-- `getattr` gives the default. -/
  getattr : ∀ {arguments : Arguments} {value default : Value} {name : String},
    arguments.twoOrThree BuiltinFunction.getattr.name = .ok (value, .text name, some default) →
      (BuiltinFunction.getattr.run arguments).Recovers settings (Attribute.get value name)
        (.within .attributeError) fun _ ↦ .done default
  /-- `hasattr` gives `False`. -/
  hasattr : ∀ {arguments : Arguments} {value : Value} {name : String},
    arguments.two BuiltinFunction.hasattr.name = .ok (value, .text name) →
      (BuiltinFunction.hasattr.run arguments).Recovers settings (Attribute.get value name)
        (.within .attributeError) fun _ ↦ .done (.bool false)
  /-- `next` gives the default; without one it raises the same exception. -/
  next : ∀ {arguments : Arguments} {iterator : Value} {default : Option Value},
    arguments.oneOrTwo BuiltinFunction.next.name = .ok (iterator, default) →
      (∀ address, iterator ≠ .iterator address) →
        (BuiltinFunction.next.run arguments).Recovers settings
          (Capability.invoke? iterator "__next__" [] none) (.exactly .stopIteration) fun signal ↦
            match default with
            | some default => .done default
            | none => .raise signal
  /-- Draining ends with the items so far. -/
  drain : ∀ {iterator : Value}, (∀ address, iterator ≠ .iterator address) →
    ∀ patience world exception reached,
      let part := Capability.invoke? iterator "__next__" [] none
      part.runWithin settings patience world = (.raised exception, reached) →
        (Handler.exactly .stopIteration).takes exception = true →
          Request.answer settings (patience + 1) (.drain iterator) world = (.value [], reached) ∧
            Request.history settings (patience + 1) (.drain iterator) world =
              part.historyWithin settings patience world
  /-- A `protect` statement binds the exception and runs its recovery. -/
  protect : ∀ (frame : Frame) (body recovery : List Script.Statement) (handled : ExceptionClass)
    (binding : Option String),
    (Script.runStatement frame (.protect body handled binding recovery)).Recovers settings
      (Script.runBlock frame body) (.within handled) fun caught ↦ do
        Script.bindCaught frame binding caught
        return .ofBlock (← Script.runBlock frame recovery)
  /-- The direct operation on an iterator shows the exception that ended the step. -/
  probedStep : ∀ iterator : Value,
    (Script.stepValue iterator).Recovers settings (Operation.advance iterator)
      (.within .baseException) fun failure ↦ do
        return .tuple [.text "failed", ← .new (.newException failure) .exception]
  /-- A step of an iterator keeps the `StopIteration` that ended it. -/
  probedNext : ∀ {iterator : Value}, (∀ address, iterator ≠ .iterator address) →
    (Operation.advance iterator).Recovers settings (Capability.invoke? iterator "__next__" [] none)
      (.exactly .stopIteration) fun signal ↦ .done (.exhausted (some signal))

namespace Operation

/-- One step of an iterator of a user class. -/
theorem recovers_advance (settings : Settings) {iterator : Value}
    (huser : ∀ address, iterator ≠ .iterator address) :
    (advance iterator).Recovers settings (Capability.invoke? iterator "__next__" [] none)
      (.exactly .stopIteration) fun signal ↦ .done (.exhausted (some signal)) := by
  unfold advance
  split
  · exact absurd rfl (huser _)
  · exact Program.recovers_attempt settings _ _ _

end Operation

theorem recoveries (settings : Settings) : Recoveries settings where
  getattr := by
    intro arguments value default name hbound
    show (BuiltinFunction.runGetattr arguments).Recovers settings _ _ _
    rw [BuiltinFunction.runGetattr, hbound]
    exact Program.recovers_attempt settings _ _ _
  hasattr := by
    intro arguments value name hbound
    show (BuiltinFunction.runHasattr arguments).Recovers settings _ _ _
    rw [BuiltinFunction.runHasattr, hbound]
    exact Program.recovers_attempt settings _ _ _
  next := by
    intro arguments iterator default hbound huser
    show (BuiltinFunction.runNext arguments).Recovers settings _ _ _
    rw [BuiltinFunction.runNext, hbound]
    cases default with
    | none => exact (Operation.recovers_advance settings huser).bind _
    | some default => exact (Operation.recovers_advance settings huser).bind _
  drain := by
    intro iterator huser patience world exception reached part hpart htakes
    obtain ⟨hrun, hhistory⟩ :=
      Operation.recovers_advance settings huser patience world exception reached hpart htakes
    constructor
    · show Ending.andThen ((Operation.advance iterator).runWithin settings patience world) _ = _
      rw [hrun]
      rfl
    · show (Operation.advance iterator).historyWithin settings patience world ++
        Ending.onward ((Operation.advance iterator).runWithin settings patience world) _ = _
      rw [hrun, hhistory]
      exact (List.append_nil _).trans (List.append_nil _)
  protect frame body recovery handled binding := by
    show (Program.handling (.within handled) (Script.runBlock frame body) >>= _).Recovers settings
      _ _ _
    exact Program.recovers_attempt settings _ _ _
  probedStep iterator := by
    exact Program.recovers_attempt settings _ _ _
  probedNext := Operation.recovers_advance settings

/-! ### Sessions -/

namespace Session

/-- The failures that come up when a statement is run. -/
def incidents (patience : Nat) (session : Session) (statement : Script.Statement) :
    List Incident :=
  let owner : Owner := .step session.frame statement
  (Script.runStep session.frame statement).incidents session.settings owner patience
    (Request.raising (Request.incidents session.settings patience owner)) session.world

/-- Whether the statement of a step or a script whose running begins in the step has a mark. -/
def Scripts (patience : Nat) (session : Session) (statement : Script.Statement)
    (mark : Script.Mark) : Prop :=
  mark ∈ statement.marks ∨
    ∃ moment ∈ session.history patience statement, moment.Enters session.settings mark

/-- Every failure with which a step ends has come up in it. -/
theorem explained (session : Session) (patience : Nat) (statement : Script.Statement) :
    (session.stepWithin patience statement).1.ExplainedBy
      (session.incidents patience statement) :=
  Program.explained (fun request world ↦ (request.explained patience _ world).after _)
    (.step session.frame statement) _ session.world

theorem accounted (session : Session) (patience : Nat) (statement : Script.Statement) :
    ∀ incident ∈ session.incidents patience statement, incident.Accounted session.settings
      (session.stepWithin patience statement).1 (session.history patience statement) :=
  Program.accounted (fun request world ↦
      request.accounted_raising (request.accounted patience _ world))
    (.step session.frame statement) _ session.world

/-- An internal error that comes up in a step is its answer, as no guard takes it. -/
theorem failsAfter_of_internal {session : Session} {patience : Nat}
    {statement : Script.Statement} {incident : Incident} {message : String}
    (hincident : incident ∈ session.incidents patience statement)
    (hmessage : incident.failure = .internal message) :
    (session.stepWithin patience statement).1.FailsAfter (session.history patience statement)
      (.internal message) incident.earlier := by
  have huntaken : incident.Untaken := by
    intro guard _
    rw [hmessage]
    rfl
  exact hmessage ▸ (session.accounted patience statement incident hincident).surfaces huntaken

/-- What becomes of failures. Every failure with which a step ends has come up in it. Of every
failure that comes up in a step, in whatever call: if no guard around it takes it, the step ends
with just this failure, and only closes what is open after it; otherwise this is so for the part
that the first guard guards that takes it, and up to there nothing else has happened
(`Incident.Accounted`). Internal errors are taken by no guard. All guards are the points that
`Owner.Guards` lists, the `protect` statements among them being those of the scripts of the step,
and programs go on from there as `Recoveries` says. -/
theorem failures_surface (session : Session) (patience : Nat) (statement : Script.Statement) :
    let ending := (session.stepWithin patience statement).1
    let moments := session.history patience statement
    let incidents := session.incidents patience statement
    ending.ExplainedBy incidents ∧
      (∀ incident ∈ incidents,
        incident.Accounted session.settings ending moments ∧
          (∀ message, incident.failure = .internal message →
            ending = .fault message ∧ ∃ closings, moments = incident.earlier ++ closings ∧
              ∀ moment ∈ closings, moment.IsClosing) ∧
          ∀ guard ∈ incident.guards,
            guard.owner.Guards (session.Scripts patience statement) guard.handler guard.body) ∧
      Recoveries session.settings := by
  intro ending moments incidents
  let owner : Owner := .step session.frame statement
  have hscript : owner.RunsScript := trivial
  let scripts := session.Scripts patience statement
  have hobeys : (Script.runStep session.frame statement).Obeys (.guarding scripts owner) :=
    Script.obeys_runStep (Policy.guarding_coversScripts hscript) ⟨trivial, trivial⟩
      fun _ hmark ↦ ⟨Or.inl hmark, hscript⟩
  have hpoints : ∀ incident ∈ incidents, incident.AtPoints scripts :=
    hobeys.atPoints (fun request world hpermitted hentered ↦ request.atPoints_raising
        (Request.atPoints patience hpermitted (hentered.of_subset (List.subset_cons_self _ _))))
      fun moment hmoment _ henters ↦ Or.inr ⟨moment, hmoment, henters⟩
  refine ⟨session.explained patience statement, fun incident hincident ↦
    ⟨session.accounted patience statement incident hincident, ?_, hpoints incident hincident⟩,
    recoveries session.settings⟩
  intro message hmessage
  obtain ⟨hfailure, hclosings⟩ := failsAfter_of_internal hincident hmessage
  exact ⟨Ending.eq_fault_of_failure? hfailure, hclosings⟩

/-! ### A failure that is taken and one that is not -/

namespace Lost

open Script

/-- Asks an integer for an attribute that it does not have. -/
def missing : Statement :=
  .evaluate (.callBuiltin "hasattr" [.literal (.int 1), .literal (.text "x")] .absent)

/-- Takes all exceptions of a missing attribute and of what ends with an internal error. -/
def statement : Statement := .protect [missing, .fault "lost"] .baseException none []

/-- Not even scripts can be run. -/
def configuration : Configuration := { Configuration.scripted with runsScripts := false }

end Lost

/-- The missing attribute comes up inside `hasattr` and is taken there; the internal error comes up
after it, and is the answer of the step. -/
theorem failures_surface_lost :
    let incidents := (start Lost.configuration).incidents 4 Lost.statement
    incidents.map Incident.failure =
        [.raised ⟨.attributeError, some "'int' object has no attribute 'x'"⟩, .internal "lost"] ∧
      incidents.map (fun incident ↦ incident.guards.map (·.takes incident.failure)) =
        [[true, true], [false]] ∧
      ((start Lost.configuration).stepWithin 4 Lost.statement).1 = .fault "lost" := by
  intro incidents
  have hfailures : incidents.map Incident.failure =
      [.raised ⟨.attributeError, some "'int' object has no attribute 'x'"⟩, .internal "lost"] := by
    decide +kernel
  refine ⟨hfailures, by decide +kernel, ?_⟩
  have hlost : Failure.internal "lost" ∈ incidents.map Incident.failure := by
    rw [hfailures]
    exact List.mem_cons_of_mem _ (List.mem_singleton_self _)
  obtain ⟨incident, hincident, hfailure⟩ := List.mem_map.mp hlost
  obtain ⟨-, hall, -⟩ := failures_surface (start Lost.configuration) 4 Lost.statement
  exact ((hall incident hincident).2.1 "lost" hfailure).1

end Session

end Metaobject
