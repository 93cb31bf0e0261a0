import Metaobject.Proofs.Run.Faults
import Metaobject.Proofs.Session.Failures

/-!
# Internal errors of sessions

Where scripts are run and source is compiled, scripts without internal errors of their own meet some
only by misusing a class body or a cell (`Session.fault_mem_misuses`). All other internal
errors of builtins, of the binding of arguments and of conversions are never reached, whatever the
arguments are and however calls nest.
-/

set_option autoImplicit false
set_option relaxedAutoImplicit false

namespace Metaobject

/-- The internal errors that tell of a misuse: a class body that is called as a function is called,
and a cell that is filled twice. -/
def Session.misuses : List String :=
  ["class body must be called with exactly its namespace", "cell is already filled"]

/-! ### The policy of scripts that never break off -/

/-- The policy under which code never breaks off, and programs end with the internal errors only
that tell of a misuse or of an ill-formed script. -/
def Policy.unbroken : Policy where
  reports := True
  drains _ := True
  runs := True
  binds _ := True
  edits := True
  writes := True
  faults message := message ∈ Session.misuses ∨ message ∈ Script.refusals
  marks mark := mark.breaksOff = false
  guards _ _ := True
  faults_of_mark _ hmark := nomatch hmark
  guards_of_mark _ _ _ _ := trivial

namespace Policy

theorem unbroken_coversScripts : unbroken.CoversScripts where
  refusals _ hrefusal := Or.inr hrefusal
  misuse := Or.inl (by simp [Session.misuses])
  drains _ _ := trivial
  runs := trivial
  edits := trivial
  probe _ := trivial
  next _ := trivial

theorem unbroken_coversCall (callable : Value) (arguments : Arguments) :
    unbroken.CoversCall callable arguments where
  misuse := unbroken_coversScripts.misuse
  function _ _ := ⟨unbroken_coversScripts, fun _ ↦ ⟨trivial, trivial⟩⟩
  buildClass _ := trivial
  print _ := trivial
  collect _ _ _ := trivial
  getattr _ _ _ _ _ := trivial
  hasattr _ _ _ _ := trivial
  next _ _ _ _ := trivial

end Policy

/-! ### Sessions -/

namespace Session

theorem addModules_permits {policy : Policy} (names : List String) {world : World}
    (hpermits : world.heap.Permits policy) : (addModules names world).2.heap.Permits policy := by
  induction names generalizing world with
  | nil => exact hpermits
  | cons name rest ih =>
    have hdict : (world.allocate (.dict (World.moduleEntries name .empty))).2.heap.Permits policy :=
      hpermits.allocate fun _ hsame ↦ nomatch hsame
    exact ih (hdict.allocate fun _ hsame ↦ nomatch hsame)

/-- A session starts without code. -/
theorem start_permits (policy : Policy) (configuration : Configuration) :
    (start configuration).world.heap.Permits policy := by
  refine addModules_permits _ ?_
  exact (Heap.permits_empty policy).allocate fun _ hsame ↦ nomatch hsame

section

variable {configuration : Configuration}

/-- One step of a script that never breaks off creates only such code, and ends as the policy
says. -/
theorem stepWithin_unbroken {session : Session} (hrests : Rests configuration session)
    (hscripts : configuration.runsScripts = true) (hcompiles : configuration.compiles = true)
    (hpermits : session.world.heap.Permits .unbroken) (patience : Nat)
    {statement : Script.Statement} (hstatement : statement.NeverBreaksOff) :
    Ending.Within .unbroken
      ((session.stepWithin patience statement).1,
        (session.stepWithin patience statement).2.world) := by
  have hsound := hrests.sound
  have hserve : session.settings.Serve .unbroken := by
    rw [hrests.settings_eq]
    exact ⟨hscripts, hcompiles, Or.inl (by simp [misuses]), fun hforeign ↦ nomatch hforeign⟩
  have hobeys : (Script.runStep session.frame statement).Obeys .unbroken :=
    Script.obeys_runStep Policy.unbroken_coversScripts ⟨trivial, trivial⟩ hstatement
  exact hobeys.run_within hserve (Request.answer_sound session.settings patience)
    (Request.answer_within hserve Policy.unbroken_coversScripts (fun _ ↦ ⟨trivial, trivial⟩)
      Policy.unbroken_coversCall patience)
    (Script.safe_runStep hsound.formed hsound.frame statement) hsound.formed hsound.settings
    hpermits

/-- The code of the heap stays such over scripts that never break off. -/
theorem after_unbroken {session : Session} (hrests : Rests configuration session)
    (hscripts : configuration.runsScripts = true) (hcompiles : configuration.compiles = true)
    (hpermits : session.world.heap.Permits .unbroken) (patience : Nat)
    {statements : List Script.Statement}
    (hstatements : ∀ statement ∈ statements, statement.NeverBreaksOff) :
    (session.after patience statements).world.heap.Permits .unbroken := by
  induction statements generalizing session with
  | nil => exact hpermits
  | cons statement rest ih =>
    obtain ⟨hstatement, hrest⟩ := List.forall_mem_cons.mp hstatements
    have hstep := stepWithin_unbroken hrests hscripts hcompiles hpermits patience hstatement
    exact ih (hrests.step patience statement) hstep.heap hrest

end

/-- Whether a script is refused in a step, in whatever call, because it is ill-formed. -/
def Refuses (patience : Nat) (session : Session) (statement : Script.Statement) : Prop :=
  ∃ incident ∈ session.incidents patience statement, ∃ message ∈ Script.refusals,
    incident.failure = .internal message

/-- Internal errors of scripts that have no statement that raises one and no body that is no script,
in whatever function. Scripts are run and source is compiled. After any steps of such a script, a
step that does not refuse it as ill-formed ends with an internal error only if a class body was not
called with exactly its namespace or a cell was filled twice; and no other internal error comes up
anywhere in the step. Direct operations are included. -/
theorem fault_mem_misuses (configuration : Configuration)
    (hscripts : configuration.runsScripts = true) (hcompiles : configuration.compiles = true)
    (patience : Nat) (statements : List Script.Statement)
    (hstatements : ∀ statement ∈ statements, statement.NeverBreaksOff)
    (statement : Script.Statement) (hstatement : statement.NeverBreaksOff)
    (haccepted : ¬((start configuration).after patience statements).Refuses patience statement) :
    let session := (start configuration).after patience statements
    (∀ message, (session.stepWithin patience statement).1 = .fault message →
      message ∈ misuses) ∧
      ∀ incident ∈ session.incidents patience statement, ∀ message,
        incident.failure = .internal message → message ∈ misuses := by
  intro session
  have hrests : Rests configuration session := Rests.start.after patience statements
  have hpermits : session.world.heap.Permits .unbroken :=
    after_unbroken .start hscripts hcompiles (start_permits .unbroken configuration) patience
      hstatements
  have hwithin := stepWithin_unbroken hrests hscripts hcompiles hpermits patience hstatement
  have hincidents : ∀ incident ∈ session.incidents patience statement, ∀ message,
      incident.failure = .internal message → message ∈ misuses := by
    intro incident hincident message hmessage
    obtain ⟨hfailure, -⟩ := failsAfter_of_internal hincident hmessage
    obtain hmisuse | hrefusal := hwithin.fault message (Ending.eq_fault_of_failure? hfailure)
    · exact hmisuse
    · exact absurd ⟨incident, hincident, message, hrefusal, hmessage⟩ haccepted
  refine ⟨fun message hfault ↦ ?_, hincidents⟩
  obtain ⟨incident, hincident, hmessage, -⟩ :=
    session.explained patience statement (.internal message) (by rw [hfault]; rfl)
  exact hincidents incident hincident message hmessage

/-! ### A class body that is called as a function -/

namespace Misused

open Script

/-- The definition of a class body under the name `body`. -/
def definition : Statement :=
  .assign .locals "body" (.function "body" (.mk "c.py" [] true (.script [])) [] [] none)

/-- A call of the class body without a namespace. -/
def statement : Statement := .evaluate (.call (.variable "body") [] .absent)

/-- Source can be compiled. -/
def configuration : Configuration := { Configuration.scripted with compiles := true }

end Misused

/-- The call of a class body without a namespace ends with an internal error, which is one of the
two. -/
theorem fault_mem_misuses_classBody : ∃ message,
    (((start Misused.configuration).after 4 [Misused.definition]).stepWithin 4
      Misused.statement).1 = .fault message ∧ message ∈ misuses := by
  have hfailures : (((start Misused.configuration).after 4 [Misused.definition]).incidents 4
      Misused.statement).map Incident.failure =
        [.internal "class body must be called with exactly its namespace"] := by decide +kernel
  have haccepted : ¬((start Misused.configuration).after 4 [Misused.definition]).Refuses 4
      Misused.statement := by
    rintro ⟨incident, hincident, message, hrefusal, hmessage⟩
    have hfailure := List.mem_map_of_mem hincident (f := Incident.failure)
    rw [hfailures, List.mem_singleton, hmessage] at hfailure
    rw [Failure.internal.inj hfailure] at hrefusal
    exact absurd hrefusal (by decide)
  have hmisuses := fault_mem_misuses Misused.configuration rfl rfl 4 [Misused.definition] ?_
    Misused.statement ?_ haccepted
  · exact ⟨"class body must be called with exactly its namespace", rfl, hmisuses.1 _ rfl⟩
  · intro statement hstatement mark hmark
    rw [List.mem_singleton.mp hstatement] at hmark
    exact absurd hmark List.not_mem_nil
  · exact fun _ hmark ↦ absurd hmark List.not_mem_nil

end Session

end Metaobject
