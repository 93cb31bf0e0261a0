import Metaobject.Proofs.Builtin.BuildClass
import Metaobject.Proofs.Run.Depth
import Metaobject.Proofs.Run.Obedience

/-!
# Bracketed traces

The events that a run records form a word of brackets (`Bracketed`). A bracket is the call of a
builtin function that the run has made (`BuiltinCall`): it opens and closes with the reports of that
call, what is nested in it are again such words, at greater depths, and what is reported beside them
is told apart by how the call ended (`BuiltinCall.Reports`). Only the construction of a class
reports anything beside them.

A part of a run adds such a word to the events recorded before it (`Ending.Brackets`). This is the
case for a program that reports nothing itself, if it is the case for the requests that it makes
(`Program.Obeys.brackets`).
-/

set_option autoImplicit false
set_option relaxedAutoImplicit false

namespace Metaobject

/-! ### Recording -/

/-- Whether the events recorded so far, without a limit, are the given ones. -/
def World.Records (world : World) (events : List TraceEvent) : Prop :=
  world.observer = .recording none events.reverse

theorem World.Records.events_eq {world : World} {events : List TraceEvent}
    (hrecords : world.Records events) : world.observer.events = events := by
  rw [hrecords]
  exact events.reverse_reverse

theorem World.Records.observe {world : World} {events : List TraceEvent}
    (hrecords : world.Records events) (event : TraceEvent) :
    (world.observe event).Records (events ++ [event]) := by
  show world.observer.observe event = .recording none (events ++ [event]).reverse
  rw [hrecords, List.reverse_append]
  rfl

/-! ### Depths -/

/-- Whether builtin functions are called and left only at depths beyond the given one. -/
def Deeper (depth : Nat) (events : List TraceEvent) : Prop :=
  ∀ event ∈ events, ∀ inner ∈ event.depth?, depth < inner

theorem deeper_nil (depth : Nat) : Deeper depth [] :=
  fun _ hevent ↦ absurd hevent List.not_mem_nil

theorem deeper_append {depth : Nat} {first second : List TraceEvent} :
    Deeper depth (first ++ second) ↔ Deeper depth first ∧ Deeper depth second :=
  List.forall_mem_append

theorem Deeper.mono {depth lower : Nat} {events : List TraceEvent} (hdeeper : Deeper depth events)
    (hlower : lower ≤ depth) : Deeper lower events :=
  fun event hevent inner hinner ↦ Nat.lt_of_le_of_lt hlower (hdeeper event hevent inner hinner)

/-! ### Calls of builtin functions -/

/-- Whether a program with the arguments of a construction runs the body that they give, as a
request of its own, and the body has no result. -/
def BuildClass.RunsWithoutResult (settings : Settings)
    (respond : {Answer : Type} → Request Answer → World → Ending Answer × World)
    (program : Program Value) (arguments : Arguments) (world : World) : Prop :=
  ∃ (definition : BuildClass.Definition) (locals : Address) (reached : World),
    BuildClass.definition world.heap arguments.positional = .ok definition ∧
      (respond (definition.bodyRequest locals) reached).1 = .value none ∧
        (definition.bodyRequest locals).moment respond reached ∈
          program.asked settings respond world

/-- What the construction of a class reports itself, before and after everything that is nested in
it, by whether it gives a value and whether the body has been run and had no result. -/
inductive BuildClass.Reports (succeeds lacksResult : Prop) :
    List TraceEvent → List TraceEvent → Prop
  /-- It fails and has resolved no metaclass. -/
  | nothing (hfails : ¬succeeds) : Reports succeeds lacksResult [] []
  /-- It has resolved its metaclass, and fails then unless the body had no result. -/
  | resolved (className metaclass : String) (hresult : succeeds → lacksResult) :
      Reports succeeds lacksResult [.metaclassResolved className metaclass] []
  /-- It has resolved its metaclass and has built its class, and gives a value. -/
  | built (className metaclass : String) (hsucceeds : succeeds) :
      Reports succeeds lacksResult [.metaclassResolved className metaclass]
        [.classBuilt className metaclass]

/-- A call of a builtin function, with the patience and the world with which it is made. -/
structure BuiltinCall where
  builtin : BuiltinFunction
  arguments : Arguments
  patience : Nat
  world : World

namespace BuiltinCall

variable (settings : Settings) (call : BuiltinCall)

/-- The call as a request. -/
def request : Request Value := .call (.builtin (.function call.builtin)) call.arguments

/-- How the call ends, and in which world. -/
def outcome : Ending Value × World := call.request.answer settings call.patience call.world

/-- What happens from the making of the call to its end. -/
def history : List Moment :=
  call.request.opening (Request.history settings call.patience) call.world

/-- The depth at which the call happens. -/
def depth : Nat := call.world.depth + 1

/-- The report with which the call begins. -/
def opening : TraceEvent := .builtinCall call.builtin.name call.arguments.count call.depth

/-- The report with which the call ends: whether it gave a value. -/
def closing : TraceEvent :=
  .builtinReturn call.builtin.name (call.outcome settings).1.isValue call.depth

/-- The program of the call. -/
def program : Program Value := Call.dispatch (.builtin (.function call.builtin)) call.arguments

/-- The world in which the program of the call begins. -/
def began : World := World.observe { call.world with depth := call.depth } call.opening

/-- How the requests are answered that the call makes. -/
def respond {Answer : Type} : Request Answer → World → Ending Answer × World :=
  Request.answer settings (call.patience - 1)

/-- Whether the call constructs a class and has run the body that it is given, and the body ended
without a result. The running of the body is a request that the call makes itself. -/
def LacksResult : Prop :=
  BuildClass.RunsWithoutResult settings (call.respond settings) call.program call.arguments
    call.began

/-- What a call reports itself, before and after everything that is nested in it: only the
construction of a class reports anything. -/
structure Reports (before after : List TraceEvent) : Prop where
  construction : call.builtin = .buildClass →
    BuildClass.Reports ((call.outcome settings).1.isValue) (call.LacksResult settings) before after
  others : call.builtin ≠ .buildClass → before = [] ∧ after = []

/-- The bracket of a call: what it reports itself, around what is nested in it. -/
def bracket (before nested after : List TraceEvent) : List TraceEvent :=
  call.opening :: (before ++ nested ++ after) ++ [call.closing settings]

variable {settings call} {before nested after : List TraceEvent}

/-- What a call reports itself gives no depth. -/
theorem Reports.deeper (hreports : call.Reports settings before after) (depth : Nat) :
    Deeper depth before ∧ Deeper depth after := by
  by_cases hbuilder : call.builtin = .buildClass
  · cases hreports.construction hbuilder <;> simp [Deeper, TraceEvent.depth?]
  · obtain ⟨rfl, rfl⟩ := hreports.others hbuilder
    exact ⟨deeper_nil depth, deeper_nil depth⟩

/-- The bracket of a call is at its depth and beyond. -/
theorem deeper_bracket (hreports : call.Reports settings before after)
    (hnested : Deeper call.depth nested) : Deeper call.world.depth
      (call.bracket settings before nested after) := by
  have hself : call.world.depth < call.depth := Nat.lt_succ_self _
  obtain ⟨hbefore, hafter⟩ := hreports.deeper call.world.depth
  intro event hevent inner hinner
  rcases List.mem_append.mp hevent with hevent | hevent
  · rcases List.mem_cons.mp hevent with rfl | hevent
    · exact Option.some.inj hinner ▸ hself
    · have hdeeper := deeper_append.mpr
        ⟨deeper_append.mpr ⟨hbefore, hnested.mono (Nat.le_of_lt hself)⟩, hafter⟩
      exact hdeeper event hevent inner hinner
  · rw [List.mem_singleton.mp hevent] at hinner
    exact Option.some.inj hinner ▸ hself

end BuiltinCall

/-! ### Words of brackets -/

/-- Words of brackets in a run that has recorded events before them. What is nested in a bracket is
such a word again, with brackets at greater depths only. The bracket of a call stands where the call
was made: the events recorded when it was made are those before the bracket, and the events recorded
at its end are those up to the end of the bracket. The histories of the calls are parts of the run
(`shows`). -/
inductive Bracketed (settings : Settings) (shows : List Moment → Prop) :
    List TraceEvent → List TraceEvent → Prop
  | nil (earlier : List TraceEvent) : Bracketed settings shows earlier []
  | call {earlier before nested after rest : List TraceEvent} (call : BuiltinCall)
      (hshows : shows (call.history settings))
      (hearlier : call.world.observer.events = earlier)
      (hlater : (call.outcome settings).2.observer.events =
        earlier ++ call.bracket settings before nested after)
      (hreports : call.Reports settings before after)
      (hdeeper : Deeper call.depth nested)
      (hnested : Bracketed settings shows (earlier ++ call.opening :: before) nested)
      (hrest : Bracketed settings shows
        (earlier ++ call.bracket settings before nested after) rest) :
      Bracketed settings shows earlier (call.bracket settings before nested after ++ rest)

theorem Bracketed.append {settings : Settings} {shows : List Moment → Prop}
    {earlier first second : List TraceEvent} (hfirst : Bracketed settings shows earlier first)
    (hsecond : Bracketed settings shows (earlier ++ first) second) :
    Bracketed settings shows earlier (first ++ second) := by
  induction hfirst with
  | nil => rwa [List.append_nil] at hsecond
  | call call hshows hearlier hlater hreports hdeeper hnested _ _ ih =>
    rw [List.append_assoc]
    refine .call call hshows hearlier hlater hreports hdeeper hnested (ih ?_)
    rwa [List.append_assoc]

/-! ### Parts of a run -/

/-- Whether a part of a run restores the depth and adds a word of brackets beyond this depth to the
events recorded before it. -/
def Ending.Brackets (settings : Settings) (shows : List Moment → Prop) (world : World)
    {Result : Type} (outcome : Ending Result × World) : Prop :=
  outcome.2.depth = world.depth ∧ ∀ earlier, world.Records earlier →
    ∃ events, outcome.2.Records (earlier ++ events) ∧
      Bracketed settings shows earlier events ∧ Deeper world.depth events

namespace Ending.Brackets

variable {settings : Settings} {shows : List Moment → Prop} {world : World}
  {First Second : Type}

/-- A part without reports. -/
theorem silent {outcome : Ending First × World} (hdepth : outcome.2.depth = world.depth)
    (hobserver : outcome.2.observer = world.observer) :
    Ending.Brackets settings shows world outcome := by
  refine ⟨hdepth, fun earlier hrecords ↦ ⟨[], ?_, .nil earlier, deeper_nil _⟩⟩
  rw [List.append_nil]
  exact hobserver.trans hrecords

theorem trans {outcome : Ending First × World} {final : Ending Second × World}
    (hfirst : Ending.Brackets settings shows world outcome)
    (hsecond : Ending.Brackets settings shows outcome.2 final) :
    Ending.Brackets settings shows world final := by
  obtain ⟨hdepth, hword⟩ := hfirst
  obtain ⟨hlast, hrest⟩ := hsecond
  refine ⟨hlast.trans hdepth, fun earlier hrecords ↦ ?_⟩
  obtain ⟨first, hmiddle, hfirst, hdeeper⟩ := hword earlier hrecords
  obtain ⟨second, hfinal, hsecond, hlater⟩ := hrest _ hmiddle
  rw [hdepth] at hlater
  exact ⟨first ++ second, List.append_assoc earlier first second ▸ hfinal, hfirst.append hsecond,
    deeper_append.mpr ⟨hdeeper, hlater⟩⟩

theorem andThen {outcome : Ending First × World} {next : First → World → Ending Second × World}
    (hfirst : Ending.Brackets settings shows world outcome)
    (hnext : ∀ result reached, outcome = (.value result, reached) →
      Ending.Brackets settings shows reached (next result reached)) :
    Ending.Brackets settings shows world (Ending.andThen outcome next) := by
  obtain ⟨ending, reached⟩ := outcome
  cases ending with
  | value result => exact hfirst.trans (hnext result reached rfl)
  | raised | fault | exhausted => exact hfirst

theorem handled {handler : Handler} {outcome : Ending First × World}
    {next : Except Exception First → World → Ending Second × World}
    (hfirst : Ending.Brackets settings shows world outcome)
    (hok : ∀ result reached, outcome = (.value result, reached) →
      Ending.Brackets settings shows reached (next (.ok result) reached))
    (herror : ∀ exception reached, outcome = (.raised exception, reached) →
      handler.takes exception = true →
        Ending.Brackets settings shows reached (next (.error exception) reached)) :
    Ending.Brackets settings shows world (Ending.handled handler outcome next) := by
  obtain ⟨ending, reached⟩ := outcome
  cases ending with
  | value result => exact hfirst.trans (hok result reached rfl)
  | raised exception =>
    by_cases htaken : handler.takes exception = true
    · rw [Ending.handled, if_pos htaken]
      exact hfirst.trans (herror exception reached rfl htaken)
    · rw [Ending.handled, if_neg htaken]
      exact hfirst
  | fault | exhausted => exact hfirst

end Ending.Brackets

/-! ### Programs without reports -/

/-- The policy under which programs do not report the construction of classes. -/
def Policy.quiet : Policy where
  reports := False
  drains _ := True
  runs := True
  binds _ := True
  edits := True
  writes := True
  faults _ := True
  marks _ := True
  guards _ _ := True
  faults_of_mark _ _ := trivial
  guards_of_mark _ _ _ _ := trivial

/-- Only the reports of constructions are observed. -/
theorem Effect.answer_observer {settings : Settings} {Answer : Type} {effect : Effect Answer}
    (hquiet : effect.Permitted .quiet) (world : World) :
    (effect.answer settings world).2.observer = world.observer := by
  cases effect with
  | permitBits bits => simp only [Effect.answer]; split <;> rfl
  | newClass definition =>
    simp only [Effect.answer, World.createClass]
    split <;> rfl
  | storeAttribute holder name content =>
    simp only [Effect.answer, World.storeAttribute]
    split <;> rfl
  | fillCell cell content =>
    simp only [Effect.answer, World.fillCell]
    split <;> rfl
  | takeItem iterator => simp only [Effect.answer]; split <;> rfl
  | write text =>
    simp only [Effect.answer, World.emit]
    split <;> rfl
  | flush =>
    simp only [Effect.answer, World.emit]
    split <;> rfl
  | importModule request =>
    simp only [Effect.answer, World.importModule]
    split
    · rfl
    · split <;> rfl
  | compileSource request =>
    simp only [Effect.answer, World.compileSource]
    split
    · rfl
    · split <;> rfl
  | enterBody code =>
    simp only [Effect.answer, World.enterBody]
    split
    · rfl
    · split
      · rfl
      · split <;> rfl
  | reportMetaclass | reportClass => exact absurd hquiet id
  | _ => rfl

section

variable {settings : Settings} {shows : List Moment → Prop}
  {respond : {Answer : Type} → Request Answer → World → Ending Answer × World}
  {inside : {Answer : Type} → Request Answer → World → List Moment}

/-- A program that reports nothing itself adds a word of brackets if the requests do that it
makes. -/
theorem Program.Obeys.brackets (hpart : ∀ {part whole}, part <:+: whole → shows whole → shows part)
    (hrespond : ∀ {Answer : Type} (request : Request Answer) (world : World),
      shows (inside request world) →
        Ending.Brackets settings shows world (respond request world))
    {Result : Type} {program : Program Result} (hobeys : program.Obeys .quiet) {world : World}
    (hshows : shows (program.history settings respond inside world)) :
    Ending.Brackets settings shows world (program.run settings respond world) := by
  induction program generalizing world with
  | done | raise | fault => exact .silent rfl rfl
  | perform effect next ih =>
    obtain ⟨hpermitted, hnext⟩ := hobeys
    have hsilent : Ending.Brackets settings shows world (effect.answer settings world) :=
      .silent (effect.answer_depth settings world) (Effect.answer_observer hpermitted world)
    refine hsilent.andThen fun answer reached hvalue ↦ ih answer (hnext answer ?_) ?_
    · exact effect.answers_of_marks (fun _ ↦ trivial) answer
    · exact hpart (suffix_history_perform hvalue).isInfix hshows
  | ask request next ih =>
    have hrequest := hrespond request world (hpart (List.prefix_append _ _).isInfix hshows)
    refine hrequest.andThen fun answer reached hvalue ↦ ih answer (hobeys.2 answer) ?_
    exact hpart (suffix_history_ask hvalue).isInfix hshows
  | attempt handler body next ihbody ihnext =>
    obtain ⟨-, hbody, hnext⟩ := hobeys
    have hword := ihbody hbody (hpart (List.prefix_append _ _).isInfix hshows)
    refine hword.handled (fun result reached hvalue ↦ ?_) fun exception reached hraised htaken ↦ ?_
    · refine ihnext _ (hnext _) (hpart ?_ hshows)
      rw [history, hvalue]
      exact (List.suffix_append _ _).isInfix
    · refine ihnext _ (hnext _) (hpart ?_ hshows)
      rw [history, hraised, Ending.handledOnward, if_pos htaken]
      exact (List.suffix_append _ _).isInfix

end

end Metaobject
