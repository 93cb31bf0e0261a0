import Metaobject.Proofs.Run.Reachable

/-!
# The discipline of the call depth

The depth of calls over whole runs (`call_depth_discipline`). Between the steps of a session it is
zero, and within a step it changes only by entering and leaving. A call, or the running of code,
restores it whatever its ending is; everything that happens for it happens one level deeper than it
was asked for, and no deeper than the limit; and at the limit it raises a `RecursionError` and
nothing else happens.
-/

set_option autoImplicit false
set_option relaxedAutoImplicit false

namespace Metaobject

/-- The history of a step leads from the world before it to the world after it. -/
theorem Session.linked_history (patience : Nat) (session : Session)
    (statement : Script.Statement) :
    Linked session.settings session.world (session.history patience statement)
      (session.stepWithin patience statement).2.world :=
  Program.linked_history session.settings
    (fun request world ↦ (Linked.singleton ⟨.asks request, world, world⟩ rfl).append
      (request.linked_history session.settings patience world)) _ _

/-- So does the history of several steps. -/
theorem Session.linked_historyOf (patience : Nat) (session : Session)
    (statements : List Script.Statement) :
    Linked session.settings session.world (session.historyOf patience statements)
      (session.after patience statements).world := by
  induction statements generalizing session with
  | nil => exact .nil session.world
  | cons statement rest ih =>
    exact (session.linked_history patience statement).append
      (ih (session.stepWithin patience statement).2)

/-- What happens in a step happens at the depth at which no call is open or deeper. -/
theorem Session.Rests.isLevel {configuration : Configuration} {session : Session}
    (hrests : Rests configuration session) (patience : Nat) (statement : Script.Statement) :
    ∀ moment ∈ session.history patience statement, moment.IsLevel session.settings 0 := by
  have hdepth := hrests.depth_eq
  have hlimit : session.world.depth ≤ session.settings.limits.maxDepth :=
    hdepth ▸ Nat.zero_le _
  exact hdepth ▸ Program.history_isLevel session.settings
    (fun request ↦ request.answer_depth session.settings patience)
    (fun request ↦ request.opening_isLevel session.settings
      (Request.history_isLevel session.settings patience)) _ session.world hlimit

/-- The depth of calls over whole runs, for every limit and every ending. The first part is about
the steps of sessions: their histories account for every change of the world. The second part is
about calls and the running of code, wherever they are asked for: the depth is restored; effects and
reports happen at a depth between one and the limit, the depth is entered and left by one at a time
and never falls below zero (`Moment.IsLevel`); and at the limit there is a `RecursionError`, and the
world is the same as before. -/
theorem call_depth_discipline :
    (∀ (configuration : Configuration) (session : Session),
      Session.Rests configuration session → session.world.depth = 0 ∧
        ∀ (patience : Nat) (statement : Script.Statement),
          Linked session.settings session.world (session.history patience statement)
            (session.stepWithin patience statement).2.world ∧
          ∀ moment ∈ session.history patience statement, moment.IsLevel session.settings 0) ∧
    ∀ (settings : Settings) (patience : Nat) (Answer : Type) (request : Request Answer)
      (world : World), request.Deepens →
        (request.answer settings patience world).2.depth = world.depth ∧
        Linked settings world (request.history settings patience world)
          (request.answer settings patience world).2 ∧
        (∀ moment ∈ request.history settings patience world,
          moment.IsLevel settings (world.depth + 1)) ∧
        (settings.limits.maxDepth ≤ world.depth →
          (∃ exception : Exception, exception.cls = .recursionError ∧
            request.answer settings (patience + 1) world = (.raised exception, world)) ∧
          request.history settings (patience + 1) world = [⟨.refuses, world, world⟩]) := by
  refine ⟨fun configuration session hrests ↦ ⟨hrests.depth_eq, fun patience statement ↦
    ⟨session.linked_history patience statement, hrests.isLevel patience statement⟩⟩, ?_⟩
  intro settings patience Answer request world hdeepens
  refine ⟨request.answer_depth settings patience world,
    request.linked_history settings patience world,
    request.history_isLevel_deeper settings patience hdeepens world, fun hlimit ↦ ⟨?_, ?_⟩⟩
  · exact ⟨.recursionLimit, rfl, request.answer_of_limit settings patience hdeepens hlimit⟩
  · exact request.history_of_limit settings patience hdeepens hlimit

/-! ### A call at a limit of one -/

namespace SingleCall

/-- One call may be open. -/
def limits : Limits := ⟨1, 8⟩

/-- The settings with this limit. -/
def settings : Settings := { Settings.scripted with limits }

/-- The configuration with this limit. -/
def configuration : Configuration := { Configuration.scripted with limits }

/-- A call of `abs` with an argument that is no number. -/
def request : Request Value := .call (.builtin (.function .abs)) (.ofList [.null])

/-- The report with which the call begins. -/
def report : Moment :=
  let entered := { World.blank with depth := 1 }
  let event := TraceEvent.builtinCall BuiltinFunction.abs.name 1 1
  ⟨.reports event, entered, entered.observe event⟩

end SingleCall

/-- A call that fails restores the depth and is reported one level deeper; a call inside it would
be refused. -/
theorem call_depth_discipline_abs :
    (Session.start SingleCall.configuration).world.depth = 0 ∧
      (SingleCall.request.answer SingleCall.settings 1 World.blank).2.depth = 0 ∧
      SingleCall.report.IsLevel SingleCall.settings 1 ∧
      ∃ exception : Exception, exception.cls = .recursionError ∧
        SingleCall.request.answer SingleCall.settings 2 { World.blank with depth := 1 } =
          (.raised exception, { World.blank with depth := 1 }) := by
  obtain ⟨hsession, hrequest⟩ := call_depth_discipline
  have hbelow := hrequest SingleCall.settings 1 Value SingleCall.request World.blank trivial
  have hlimit := hrequest SingleCall.settings 1 Value SingleCall.request
    { World.blank with depth := 1 } trivial
  have hreport : (SingleCall.request.history SingleCall.settings 1 World.blank)[1]? =
      some SingleCall.report := rfl
  exact ⟨(hsession _ _ .start).1, hbelow.1, hbelow.2.2.1 _ (List.mem_of_getElem? hreport),
    (hlimit.2.2.2 (Nat.le_refl 1)).1⟩

end Metaobject
