import Metaobject.Proofs.Builtin.Resolution
import Metaobject.Proofs.Session.Trace

/-!
# Calls in the order of their completion

The calls of builtin functions that are completed while a request is answered, each after all calls
that happen in it (`Request.completed`). These are the calls whose returns are reported in the
history of the request, in the same order (`Request.returns_history`), and the same holds of the
steps of a session (`Session.returns_historyOf`).
-/

set_option autoImplicit false
set_option relaxedAutoImplicit false

namespace Metaobject

/-! ### Completed calls -/

/-- The calls that are completed at a moment at which a request is answered. -/
def Moment.calls (inside : {Answer : Type} → Request Answer → World → List BuiltinCall)
    (moment : Moment) : List BuiltinCall :=
  match moment.action with
  | .asks request => inside request moment.before
  | _ => []

/-- The calls that are completed in the requests of a run of a program. -/
def Program.calls (settings : Settings)
    (respond : {Answer : Type} → Request Answer → World → Ending Answer × World)
    (inside : {Answer : Type} → Request Answer → World → List BuiltinCall)
    {Result : Type} (program : Program Result) (world : World) : List BuiltinCall :=
  (program.asked settings respond world).flatMap (Moment.calls inside)

/-- A call of a value, if that is a builtin function. -/
def BuiltinCall.of? (callable : Value) (arguments : Arguments) (patience : Nat) (world : World) :
    Option BuiltinCall :=
  match callable with
  | .builtin (.function builtin) => some ⟨builtin, arguments, patience, world⟩
  | _ => none

/-- The calls of builtin functions that are completed while a request is answered, in the order of
their completion: a call comes after all calls that happen in it. -/
def Request.completed (settings : Settings) : (patience : Nat) → {Answer : Type} →
    Request Answer → World → List BuiltinCall
  | 0, _, _, _ => []
  | patience + 1, _, .call callable arguments, world =>
    if settings.limits.maxDepth ≤ world.depth then []
    else
      (Call.dispatch callable arguments).calls settings (Request.answer settings patience)
          (completed settings patience) (world.entered callable arguments) ++
        (BuiltinCall.of? callable arguments (patience + 1) world).toList
  | patience + 1, _, .runCode frame code, world =>
    if settings.limits.maxDepth ≤ world.depth then []
    else (Script.runCode frame code).calls settings (Request.answer settings patience)
      (completed settings patience) { world with depth := world.depth + 1 }
  | patience + 1, _, .drain iterator, world =>
    (Operation.advance iterator).calls settings (Request.answer settings patience)
        (completed settings patience) world ++
      match (Operation.advance iterator).run settings (Request.answer settings patience) world with
      | (.value (.produced _), reached) => completed settings patience (.drain iterator) reached
      | _ => []

/-! ### Reported returns -/

/-- The return of a builtin function that is reported at a moment. -/
def Moment.return? (moment : Moment) : Option TraceEvent :=
  match moment.action with
  | .reports (.builtinReturn name succeeded depth) => some (.builtinReturn name succeeded depth)
  | _ => none

/-- The returns that are reported at some moments, in order. -/
def returns (moments : List Moment) : List TraceEvent := moments.filterMap Moment.return?

theorem returns_append (first second : List Moment) :
    returns (first ++ second) = returns first ++ returns second :=
  List.filterMap_append

section

variable {settings : Settings}
  {respond : {Answer : Type} → Request Answer → World → Ending Answer × World}
  {inside : {Answer : Type} → Request Answer → World → List Moment}
  {among : {Answer : Type} → Request Answer → World → List BuiltinCall}

/-- The returns in the history of a program are those of the calls in its requests. -/
theorem Program.returns_history
    (hinside : ∀ {Answer : Type} (request : Request Answer) (world : World),
      returns (inside request world) = (among request world).map (BuiltinCall.closing settings))
    {Result : Type} (program : Program Result) (world : World) :
    returns (program.history settings respond inside world) =
      (program.calls settings respond among world).map (BuiltinCall.closing settings) := by
  induction program generalizing world with
  | done | raise | fault => rfl
  | perform effect next ih =>
    have hasked := Program.asked_bind settings respond (Program.effect effect) next world
    rw [asked_effect, run_effect] at hasked
    rw [history, calls, show (perform effect next).asked settings respond world = _ from hasked]
    rcases Ending.value_or_cut (effect.answer settings world) with ⟨answer, hanswer⟩ | ⟨cut, hcut⟩
    · rw [hanswer]
      exact ih answer _
    · rw [hcut, cut.onward_ending, cut.onward_ending]
      rfl
  | ask request next ih =>
    have hasked := Program.asked_bind settings respond (Program.request request) next world
    rw [asked_request, run_request] at hasked
    rw [history, calls, show (ask request next).asked settings respond world = _ from hasked,
      returns_append, hinside, List.flatMap_append, List.map_append, List.flatMap_singleton]
    refine congrArg _ ?_
    rcases Ending.value_or_cut (respond request world) with ⟨answer, hanswer⟩ | ⟨cut, hcut⟩
    · rw [hanswer]
      exact ih answer _
    · rw [hcut, cut.onward_ending, cut.onward_ending]
      rfl
  | attempt handler body next ihbody ihnext =>
    rw [history, calls, asked_attempt, returns_append, List.flatMap_append, List.map_append]
    refine congr (congrArg _ (ihbody world)) ?_
    generalize body.run settings respond world = outcome
    obtain ⟨ending, after⟩ := outcome
    cases ending with
    | value answer => exact ihnext (.ok answer) after
    | raised exception =>
      by_cases htaken : handler.takes exception = true
      · simp only [Ending.handledOnward, if_pos htaken]
        exact ihnext (.error exception) after
      · simp only [Ending.handledOnward, if_neg htaken]
        rfl
    | fault | exhausted => rfl

end

section

variable {settings : Settings}

theorem World.returns_deeperHistory {Result : Type} {part : World → Ending Result × World}
    {history : World → List Moment} {world : World}
    (hlimit : ¬settings.limits.maxDepth ≤ world.depth) :
    returns (world.deeperHistory settings part history) =
      returns (history { world with depth := world.depth + 1 }) := by
  rw [deeperHistory, if_neg hlimit]
  exact (returns_append _ _).trans (List.append_nil _)

/-- The returns in the history of a call are those of the calls in its requests, and then its own if
a builtin function is called. -/
theorem Call.returns_history {patience : Nat}
    (hinside : ∀ {Answer : Type} (request : Request Answer) (world : World),
      returns (request.opening (Request.history settings patience) world) =
        (request.completed settings patience world).map (BuiltinCall.closing settings))
    (callable : Value) (arguments : Arguments) {world : World}
    (hlimit : ¬settings.limits.maxDepth ≤ world.depth) :
    returns (Call.history settings (Request.answer settings patience)
        (Request.opening (Request.history settings patience)) callable arguments
        { world with depth := world.depth + 1 }) =
      ((Call.dispatch callable arguments).calls settings (Request.answer settings patience)
          (Request.completed settings patience) (world.entered callable arguments) ++
        (BuiltinCall.of? callable arguments (patience + 1) world).toList).map
          (BuiltinCall.closing settings) := by
  have hprogram : ∀ world, returns ((dispatch callable arguments).history settings
      (Request.answer settings patience) (Request.opening (Request.history settings patience))
        world) = ((dispatch callable arguments).calls settings (Request.answer settings patience)
          (Request.completed settings patience) world).map (BuiltinCall.closing settings) :=
    fun world ↦ Program.returns_history hinside _ world
  cases callable with
  | builtin builtin =>
    cases builtin with
    | function builtin =>
      -- The report of the return comes last in the history, and the call last among the completed.
      let call : BuiltinCall := ⟨builtin, arguments, patience + 1, world⟩
      have hclosing : call.closing settings = .builtinReturn builtin.name
          ((call.program.run settings (Request.answer settings patience) call.began).1.isValue)
          call.depth := by
        rw [BuiltinCall.closing, call.outcome_of_entered rfl hlimit]
      rw [List.map_append, ← hprogram]
      refine (returns_append _ _).trans (congrArg _ ?_)
      exact congrArg (fun event ↦ [event]) hclosing.symm
    | type | exception => exact (hprogram _).trans (congrArg _ (List.append_nil _).symm)
  | _ => exact (hprogram _).trans (congrArg _ (List.append_nil _).symm)

/-- The returns in the history of a request are those of the calls that are completed in it. -/
theorem Request.returns_history (patience : Nat) {Answer : Type} (request : Request Answer)
    (world : World) :
    returns (request.history settings patience world) =
      (request.completed settings patience world).map (BuiltinCall.closing settings) := by
  induction patience generalizing Answer world with
  | zero => rfl
  | succ patience ih =>
    have hinside : ∀ {Answer : Type} (request : Request Answer) (world : World),
        returns (request.opening (Request.history settings patience) world) =
          (request.completed settings patience world).map (BuiltinCall.closing settings) :=
      fun request world ↦ ih request world
    cases request with
    | call callable arguments =>
      rw [completed]
      split
      next hlimit =>
        rw [history, World.deeperHistory, if_pos hlimit]
        rfl
      next hlimit =>
        rw [history, World.returns_deeperHistory hlimit]
        exact Call.returns_history hinside callable arguments hlimit
    | runCode frame code =>
      rw [completed]
      split
      next hlimit =>
        rw [history, World.deeperHistory, if_pos hlimit]
        rfl
      next hlimit =>
        rw [history, World.returns_deeperHistory hlimit]
        exact Program.returns_history hinside _ _
    | drain iterator =>
      rw [completed, history, returns_append, List.map_append,
        Program.returns_history hinside]
      refine congrArg _ ?_
      generalize (Operation.advance iterator).run settings (answer settings patience) world =
        outcome
      obtain ⟨ending, reached⟩ := outcome
      cases ending with
      | value step =>
        cases step with
        | exhausted => rfl
        | produced item => exact ih (.drain iterator) reached
      | raised | fault | exhausted => rfl

end

namespace Session

/-- The calls of builtin functions that are completed in a step of a session. -/
def completedIn (patience : Nat) (session : Session) (statement : Script.Statement) :
    List BuiltinCall :=
  (Script.runStep session.frame statement).calls session.settings
    (Request.answer session.settings patience) (Request.completed session.settings patience)
    session.world

/-- The calls of builtin functions that are completed in the steps of a session, in order. -/
def completed (patience : Nat) (session : Session) : List Script.Statement → List BuiltinCall
  | [] => []
  | statement :: rest =>
    session.completedIn patience statement ++
      completed patience (session.stepWithin patience statement).2 rest

/-- The returns in the history of several steps are those of the calls completed in them. -/
theorem returns_historyOf (patience : Nat) (session : Session)
    (statements : List Script.Statement) :
    returns (session.historyOf patience statements) =
      (session.completed patience statements).map (BuiltinCall.closing session.settings) := by
  induction statements generalizing session with
  | nil => rfl
  | cons statement rest ih =>
    have hinside : ∀ {Answer : Type} (request : Request Answer) (world : World),
        returns (request.opening (Request.history session.settings patience) world) =
          (request.completed session.settings patience world).map
            (BuiltinCall.closing session.settings) :=
      fun request world ↦ request.returns_history patience world
    rw [historyOf, completed, returns_append, List.map_append]
    exact congr (congrArg _ (Program.returns_history hinside _ session.world))
      (ih (session.stepWithin patience statement).2)

end Session

end Metaobject
