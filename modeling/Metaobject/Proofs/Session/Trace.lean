import Metaobject.Proofs.Builtin.Reports
import Metaobject.Proofs.Obedience.Call
import Metaobject.Proofs.Run.Reachable

/-!
# Traces of sessions

What a run of a session records without a limit is a word of brackets (`Session.bracketed`): every
call of a builtin function that is reported is closed by the report of its return, with the same
name, at the same depth and with success exactly if the call gave a value, and the reports of a
class construction stand directly in its bracket. Answering a request adds such a word, whatever
runs for it and however it ends (`Request.brackets`), and so does every step
(`Session.Rests.brackets_after`).
-/

set_option autoImplicit false
set_option relaxedAutoImplicit false

namespace Metaobject

/-! ### Programs of calls and scripts -/

theorem Policy.quiet_coversScripts : Policy.quiet.CoversScripts where
  refusals _ _ := trivial
  misuse := trivial
  drains _ _ := trivial
  runs := trivial
  edits := trivial
  probe _ := trivial
  next _ := trivial

/-- Only the construction of a class reports anything in its program. -/
theorem Policy.quiet_coversCall {callable : Value}
    (hother : callable ≠ .builtin (.function .buildClass)) (arguments : Arguments) :
    Policy.quiet.CoversCall callable arguments where
  misuse := trivial
  function _ _ := ⟨quiet_coversScripts, fun _ ↦ ⟨trivial, trivial⟩⟩
  buildClass hbuilder := absurd hbuilder hother
  print _ := trivial
  collect _ _ _ := trivial
  getattr _ _ _ _ _ := trivial
  hasattr _ _ _ _ := trivial
  next _ _ _ _ := trivial

/-! ### Requests -/

section

variable {settings : Settings} {shows : List Moment → Prop} {world : World}

theorem Ending.Brackets.deeper {Result : Type} {part : World → Ending Result × World}
    (hpart : ¬settings.limits.maxDepth ≤ world.depth →
      Ending.Brackets settings shows { world with depth := world.depth + 1 }
        (part { world with depth := world.depth + 1 })) :
    Ending.Brackets settings shows world (world.deeper settings part) := by
  by_cases hlimit : settings.limits.maxDepth ≤ world.depth
  · rw [World.deeper, if_pos hlimit]
    exact .silent rfl rfl
  · rw [World.deeper, if_neg hlimit]
    obtain ⟨hdepth, hword⟩ := hpart hlimit
    refine ⟨congrArg (· - 1) hdepth, fun earlier hrecords ↦ ?_⟩
    obtain ⟨events, hfinal, hevents, hdeeper⟩ := hword earlier hrecords
    exact ⟨events, hfinal, hevents, hdeeper.mono (Nat.le_succ _)⟩

theorem World.infix_deeperHistory {Result : Type} {part : World → Ending Result × World}
    {history : World → List Moment} (hlimit : ¬settings.limits.maxDepth ≤ world.depth) :
    history { world with depth := world.depth + 1 } <:+:
      world.deeperHistory settings part history := by
  rw [deeperHistory, if_neg hlimit]
  exact (List.suffix_cons _ _).isInfix.trans (List.prefix_append _ _).isInfix

theorem Request.suffix_opening {Answer : Type}
    {happening : {Answer : Type} → Request Answer → World → List Moment}
    (request : Request Answer) (world : World) :
    happening request world <:+ request.opening happening world :=
  List.suffix_cons _ _

theorem BuildClass.Reports.imp {succeeds lacks lacksToo : Prop} {before after : List TraceEvent}
    (hreports : BuildClass.Reports succeeds lacks before after) (himp : lacks → lacksToo) :
    BuildClass.Reports succeeds lacksToo before after := by
  cases hreports with
  | nothing hfails => exact .nothing hfails
  | resolved className metaclass hresult =>
    exact .resolved className metaclass fun hsucceeds ↦ himp (hresult hsucceeds)
  | built className metaclass hsucceeds => exact .built className metaclass hsucceeds

section

variable {respond : {Answer : Type} → Request Answer → World → Ending Answer × World}
  {inside : {Answer : Type} → Request Answer → World → List Moment} {callable : Value}
  (hother : ∀ builtin, callable ≠ .builtin (.function builtin)) (arguments : Arguments)
  (world : World)

include hother

/-- Calls of values other than builtin functions are not reported. -/
theorem Call.run_of_other : Call.run settings respond callable arguments world =
    (Call.dispatch callable arguments).run settings respond world := by
  unfold Call.run
  split
  · exact absurd rfl (hother _)
  · rfl

theorem Call.history_of_other : Call.history settings respond inside callable arguments world =
    (Call.dispatch callable arguments).history settings respond inside world := by
  unfold Call.history
  split
  · exact absurd rfl (hother _)
  · rfl

end

namespace BuiltinCall

variable {call : BuiltinCall} {patience : Nat}

/-- A call at the depth limit is refused. -/
theorem outcome_of_limit (hpatience : call.patience = patience + 1)
    (hlimit : settings.limits.maxDepth ≤ call.world.depth) :
    call.outcome settings = (.raised .recursionLimit, call.world) := by
  obtain ⟨builtin, arguments, _, world⟩ := call
  subst hpatience
  exact if_pos hlimit

/-- A call that is not refused ends as its program does, which runs between two reports. -/
theorem outcome_of_entered (hpatience : call.patience = patience + 1)
    (hlimit : ¬settings.limits.maxDepth ≤ call.world.depth) :
    let inner := call.program.run settings (Request.answer settings patience) call.began
    call.outcome settings =
      (inner.1, { inner.2.observe (call.closing settings) with depth := inner.2.depth - 1 }) := by
  obtain ⟨builtin, arguments, _, world⟩ := call
  subst hpatience
  intro inner
  let call : BuiltinCall := ⟨builtin, arguments, patience + 1, world⟩
  have houtcome : call.outcome settings = (inner.1, { inner.2.observe
      (.builtinReturn builtin.name inner.1.isValue call.depth) with
        depth := inner.2.depth - 1 }) := if_neg hlimit
  rw [closing, houtcome]

/-- What happens in the program of a call is part of what happens in the call. -/
theorem infix_history (hpatience : call.patience = patience + 1)
    (hlimit : ¬settings.limits.maxDepth ≤ call.world.depth) :
    call.program.history settings (Request.answer settings patience)
      (Request.opening (Request.history settings patience)) call.began <:+:
        call.history settings := by
  obtain ⟨builtin, arguments, _, world⟩ := call
  subst hpatience
  refine List.IsInfix.trans ?_ (Request.suffix_opening _ world).isInfix
  refine List.IsInfix.trans ?_ (World.infix_deeperHistory hlimit)
  exact (List.suffix_cons _ _).isInfix.trans (List.prefix_append _ _).isInfix

/-- A construction whose body has had no result is a call that lacks a result. -/
theorem lacksResult_of_runs (hpatience : call.patience = patience + 1)
    (hbuilder : call.builtin = .buildClass)
    (hruns : BuildClass.RunsWithoutResult settings (Request.answer settings patience)
      (BuildClass.run call.arguments) call.arguments call.began) : call.LacksResult settings := by
  obtain ⟨builtin, arguments, _, world⟩ := call
  subst hpatience hbuilder
  exact hruns

end BuiltinCall

variable (hpart : ∀ {part whole}, part <:+: whole → shows whole → shows part)

include hpart

/-- What the program of a builtin function adds to the recorded events, with what it reports
itself. -/
theorem BuiltinFunction.exists_reports {patience : Nat}
    (hrespond : ∀ {Answer : Type} (request : Request Answer) (world : World),
      shows (request.opening (Request.history settings patience) world) →
        Ending.Brackets settings shows world (request.answer settings patience world))
    {builtin : BuiltinFunction} {arguments : Arguments} {earlier : List TraceEvent}
    (hrecords : world.Records earlier)
    (hshows : shows ((Call.dispatch (.builtin (.function builtin)) arguments).history settings
      (Request.answer settings patience) (Request.opening (Request.history settings patience))
        world)) :
    let outcome := (Call.dispatch (.builtin (.function builtin)) arguments).run settings
      (Request.answer settings patience) world
    ∃ before nested after, outcome.2.Records (earlier ++ (before ++ nested ++ after)) ∧
      Bracketed settings shows (earlier ++ before) nested ∧ Deeper world.depth nested ∧
        (builtin = .buildClass → BuildClass.Reports outcome.1.isValue
          (BuildClass.RunsWithoutResult settings (Request.answer settings patience)
            (BuildClass.run arguments) arguments world) before after) ∧
          (builtin ≠ .buildClass → before = [] ∧ after = []) := by
  by_cases hbuilder : builtin = .buildClass
  · subst hbuilder
    have hbuild : shows ((BuildClass.run arguments).history settings
        (Request.answer settings patience) (Request.opening (Request.history settings patience))
          world) := hpart (List.suffix_cons _ _).isInfix hshows
    obtain ⟨before, nested, after, hfinal, hnested, hdeeper, hreports⟩ :=
      BuildClass.exists_reports hpart hrespond hrecords hbuild
    exact ⟨before, nested, after, hfinal, hnested, hdeeper, fun _ ↦ hreports,
      fun hother ↦ absurd rfl hother⟩
  · have hother : Value.builtin (.function builtin) ≠ .builtin (.function .buildClass) := by
      intro hsame
      cases hsame
      exact hbuilder rfl
    have hobeys := Call.obeys_dispatch (Policy.quiet_coversCall hother arguments)
    obtain ⟨-, hword⟩ := hobeys.brackets hpart hrespond hshows
    obtain ⟨nested, hfinal, hnested, hdeeper⟩ := hword earlier hrecords
    refine ⟨[], nested, [], ?_, ?_, hdeeper, fun hsame ↦ absurd hsame hbuilder,
      fun _ ↦ ⟨rfl, rfl⟩⟩
    · rw [List.nil_append, List.append_nil]
      exact hfinal
    · rwa [List.append_nil]

/-- Answering a call of a builtin function adds the bracket of the call. -/
theorem BuiltinCall.brackets (call : BuiltinCall) (hshows : shows (call.history settings))
    {patience : Nat} (hpatience : call.patience = patience + 1)
    (hrespond : ∀ {Answer : Type} (request : Request Answer) (world : World),
      shows (request.opening (Request.history settings patience) world) →
        Ending.Brackets settings shows world (request.answer settings patience world)) :
    Ending.Brackets settings shows call.world (call.outcome settings) := by
  refine ⟨call.request.answer_depth settings call.patience call.world, fun earlier hrecords ↦ ?_⟩
  by_cases hlimit : settings.limits.maxDepth ≤ call.world.depth
  · refine ⟨[], ?_, .nil earlier, deeper_nil _⟩
    rw [call.outcome_of_limit hpatience hlimit, List.append_nil]
    exact hrecords
  · have houtcome := call.outcome_of_entered hpatience hlimit
    have hinside := call.infix_history hpatience hlimit
    have hbegan : call.began.Records (earlier ++ [call.opening]) :=
      World.Records.observe hrecords _
    obtain ⟨before, nested, after, hfinal, hnested, hdeeper, hconstruction, hothers⟩ :=
      BuiltinFunction.exists_reports hpart hrespond hbegan (hpart hinside hshows)
    have hreports : call.Reports settings before after := by
      refine ⟨fun hbuilder ↦ ?_, hothers⟩
      rw [houtcome]
      exact (hconstruction hbuilder).imp (lacksResult_of_runs hpatience hbuilder)
    have hlater : (call.outcome settings).2.Records
        (earlier ++ call.bracket settings before nested after) := by
      have hended := hfinal.observe (call.closing settings)
      rw [List.append_assoc, List.append_assoc] at hended
      rw [houtcome]
      exact hended
    refine ⟨call.bracket settings before nested after ++ [], ?_, ?_, ?_⟩
    · rwa [List.append_nil]
    · refine .call call hshows (World.Records.events_eq hrecords) hlater.events_eq hreports hdeeper
        ?_ (.nil _)
      rw [List.append_assoc] at hnested
      exact hnested
    · rw [List.append_nil]
      exact BuiltinCall.deeper_bracket hreports hdeeper

/-- Draining an iterator adds a word of brackets if answering requests with less patience does. -/
theorem Request.brackets_drain {patience : Nat}
    (hrespond : ∀ {Answer : Type} (request : Request Answer) (world : World),
      shows (request.opening (Request.history settings patience) world) →
        Ending.Brackets settings shows world (request.answer settings patience world))
    (hdrain : ∀ iterator world, shows (Request.history settings patience (.drain iterator) world) →
      Ending.Brackets settings shows world
        (Request.answer settings patience (.drain iterator) world))
    (iterator : Value) (world : World)
    (hshows : shows (Request.history settings (patience + 1) (.drain iterator) world)) :
    Ending.Brackets settings shows world
      (Request.answer settings (patience + 1) (.drain iterator) world) := by
  have hadvance : (Operation.advance iterator).Obeys .quiet := Operation.obeys_advance trivial
  have hstep := hadvance.brackets hpart hrespond (hpart (List.prefix_append _ _).isInfix hshows)
  refine hstep.andThen fun step reached hvalue ↦ ?_
  cases step with
  | exhausted => exact .silent rfl rfl
  | produced item =>
    have hrest := hdrain iterator reached
      (hpart (Request.suffix_history_drain hvalue).isInfix hshows)
    exact hrest.andThen fun _ _ _ ↦ .silent rfl rfl

/-- Answering a request adds a word of brackets. -/
theorem Request.brackets (patience : Nat) :
    (∀ {Answer : Type} (request : Request Answer) (world : World),
      shows (request.opening (Request.history settings patience) world) →
        Ending.Brackets settings shows world (request.answer settings patience world)) ∧
    ∀ iterator world, shows (Request.history settings patience (.drain iterator) world) →
      Ending.Brackets settings shows world
        (Request.answer settings patience (.drain iterator) world) := by
  induction patience with
  | zero => exact ⟨fun _ _ _ ↦ .silent rfl rfl, fun _ _ _ ↦ .silent rfl rfl⟩
  | succ patience ih =>
    obtain ⟨hrespond, hdrain⟩ := ih
    have hdrain := Request.brackets_drain hpart hrespond hdrain
    refine ⟨fun {Answer} request world hshows ↦ ?_, hdrain⟩
    have hhistory := hpart (request.suffix_opening world).isInfix hshows
    cases request with
    | call callable arguments =>
      by_cases hbuiltin : ∃ builtin, callable = .builtin (.function builtin)
      · obtain ⟨builtin, rfl⟩ := hbuiltin
        exact BuiltinCall.brackets hpart ⟨builtin, arguments, patience + 1, world⟩ hshows rfl
          hrespond
      · have hother : ∀ builtin, callable ≠ .builtin (.function builtin) :=
          fun builtin hsame ↦ hbuiltin ⟨builtin, hsame⟩
        refine .deeper fun hlimit ↦ ?_
        have hinside := hpart (World.infix_deeperHistory hlimit) hhistory
        rw [Call.history_of_other hother] at hinside
        rw [Call.run_of_other hother]
        exact (Call.obeys_dispatch (Policy.quiet_coversCall (hother _) arguments)).brackets hpart
          hrespond hinside
    | runCode frame code =>
      refine .deeper fun hlimit ↦ ?_
      have hobeys : (Script.runCode frame code).Obeys .quiet :=
        Script.obeys_runCode Policy.quiet_coversScripts ⟨trivial, trivial⟩ code
      exact hobeys.brackets hpart hrespond (hpart (World.infix_deeperHistory hlimit) hhistory)
    | drain iterator => exact hdrain iterator world hhistory

end

/-! ### Sessions -/

namespace Session

theorem addModules_observer (names : List String) (world : World) :
    (addModules names world).2.observer = world.observer := by
  induction names generalizing world with
  | nil => rfl
  | cons name rest ih => exact ih (addModule name world).2

/-- A session that has recorded events without a limit adds a word of brackets to them in the
statements that it runs next. -/
theorem Rests.brackets_after {configuration : Configuration} {session : Session}
    (hrests : Rests configuration session) {shows : List Moment → Prop}
    (hpart : ∀ {part whole}, part <:+: whole → shows whole → shows part) (patience : Nat)
    (statements : List Script.Statement) (hshows : shows (session.historyOf patience statements))
    {earlier : List TraceEvent} (hrecords : session.world.Records earlier) :
    ∃ events, (session.after patience statements).world.Records (earlier ++ events) ∧
      Bracketed session.settings shows earlier events ∧ Deeper 0 events := by
  induction statements generalizing session earlier with
  | nil => exact ⟨[], (List.append_nil earlier).symm ▸ hrecords, .nil earlier, deeper_nil 0⟩
  | cons statement rest ih =>
    have hobeys : (Script.runStep session.frame statement).Obeys .quiet :=
      Script.obeys_runStep Policy.quiet_coversScripts ⟨trivial, trivial⟩ fun _ _ ↦ trivial
    have hstep : shows (session.history patience statement) :=
      hpart (List.prefix_append _ _).isInfix hshows
    have hrequests := @Request.brackets session.settings shows hpart patience
    obtain ⟨-, hword⟩ := hobeys.brackets hpart hrequests.1 hstep
    obtain ⟨first, hmiddle, hfirst, hdeeper⟩ := hword earlier hrecords
    rw [hrests.depth_eq] at hdeeper
    obtain ⟨second, hfinal, hsecond, hlater⟩ := ih (hrests.step patience statement)
      (hpart (List.suffix_append _ _).isInfix hshows) hmiddle
    exact ⟨first ++ second, List.append_assoc earlier first second ▸ hfinal,
      hfirst.append hsecond, deeper_append.mpr ⟨hdeeper, hlater⟩⟩

/-- The trace of a run of statements, with an observer that records without a limit. Its events form
a word of brackets: each bracket is a call of a builtin function that was made in this run when
exactly the events before it were recorded, it opens and closes with the name and the depth of the
call, and it closes with success if and only if the call gave a value (`BuiltinCall.closing`). What
is nested in a bracket is deeper. Besides, only a class construction reports anything directly in
its bracket: its metaclass first and at most once, then its class last and at most once, with the
same names; a construction that has reported its class succeeds, and one that succeeds without has
itself run the body that it was given, which had no result (`BuildClass.Reports`). -/
theorem bracketed (configuration : Configuration)
    (hobserver : configuration.observer = .recording none []) (patience : Nat)
    (statements : List Script.Statement) :
    let session := (start configuration).after patience statements
    Bracketed session.settings (· <:+: (start configuration).historyOf patience statements) []
        session.world.observer.events ∧
      Deeper 0 session.world.observer.events := by
  intro session
  have hrests : Rests configuration (start configuration) := .start
  have hrecords : (start configuration).world.Records [] :=
    (addModules_observer (configuration.modules.getD []) _).trans hobserver
  obtain ⟨events, hfinal, hevents⟩ := hrests.brackets_after List.IsInfix.trans patience statements
    List.infix_rfl hrecords
  rwa [hfinal.events_eq, (hrests.after patience statements).settings_eq]

/-! ### A trace with a construction that is built and one that is not -/

namespace Traced

open Script

/-- The construction of a class with a body. -/
def build (name : String) (body : List Statement) : Expression :=
  .call (.builtin "__build_class__")
    [.function name (.mk "c.py" [] true (.script body)) [] [] none, .literal (.text name)] .absent

/-- A call of a builtin function that fails. -/
def failing : Statement :=
  .protect [.evaluate (.callBuiltin "abs" [.literal .null] .absent)] .typeError none []

/-- A class whose body calls a builtin function that fails, and a body without a result. -/
def statements : List Statement :=
  [.evaluate (build "C" [failing, .result (.literal .null)]), .evaluate (build "D" [])]

/-- All events are recorded. -/
def configuration : Configuration := { Configuration.scripted with observer := .recording none [] }

/-- The session after both constructions. -/
def session : Session := (start configuration).after 4 statements

/-- What the session has recorded. -/
def events : List TraceEvent :=
  [.builtinCall "__build_class__" 2 1, .metaclassResolved "C" "type", .builtinCall "abs" 1 3,
   .builtinReturn "abs" false 3, .classBuilt "C" "type", .builtinReturn "__build_class__" true 1,
   .builtinCall "__build_class__" 2 1, .metaclassResolved "D" "type",
   .builtinReturn "__build_class__" true 1]

end Traced

/-- The recorded events of both constructions are bracketed by what has happened in them. -/
theorem bracketed_traced : Traced.session.world.observer.events = Traced.events ∧
    Bracketed Traced.session.settings
      (· <:+: (start Traced.configuration).historyOf 4 Traced.statements) [] Traced.events := by
  have hevents : Traced.session.world.observer.events = Traced.events := by decide +kernel
  have hbracketed := (bracketed Traced.configuration rfl 4 Traced.statements).1
  exact ⟨hevents, hevents ▸ hbracketed⟩

end Session

end Metaobject
