import Metaobject.Proofs.Builtin.Printing
import Metaobject.Proofs.Session.Completion

/-!
# What sessions print

A call of `print` writes all or nothing (`Session.print_all_or_nothing`). In any surroundings it
takes one of the courses of `Print.Course`. With a collecting output a run adds exactly the texts of
its successful calls of `print` to what was written before, in the order in which these calls are
completed (`Request.gains`).
-/

set_option autoImplicit false
set_option relaxedAutoImplicit false

namespace Metaobject

/-! ### What calls print -/

/-- The text of a call of `print` whose keywords are accepted and whose values can be converted. -/
def Print.text? (settings : Settings)
    (respond : {Answer : Type} → Request Answer → World → Ending Answer × World)
    (arguments : Arguments) (world : World) : Option String :=
  match Options.ofKeywords world.heap (arguments.keywordList world.heap),
    ((convertAll arguments.positional).run settings respond world).1 with
  | .ok options, .value texts => some (options.format texts)
  | _, _ => none

namespace BuiltinCall

variable (settings : Settings)

/-- Whether a call is a successful call of `print`. -/
def printed (call : BuiltinCall) : Bool :=
  decide (call.builtin = .print) && (call.outcome settings).1.isValue

/-- The text of a successful call of `print`. -/
def text? (call : BuiltinCall) : Option String :=
  if call.printed settings then
    Print.text? settings (Request.answer settings (call.patience - 1)) call.arguments call.began
  else none

/-- The texts of the successful calls of `print` among calls, in order. -/
def texts (calls : List BuiltinCall) : List String := calls.filterMap (text? settings)

/-- Whether a text is that of the values of a call, as they are converted in it, in the form that
its keywords ask for. -/
def Writes (call : BuiltinCall) (text : String) : Prop :=
  ∃ texts, ((Print.convertAll call.arguments.positional).run settings
      (Request.answer settings (call.patience - 1)) call.began).1 = .value texts ∧
    text = (Print.Options.requested call.world.heap
      (Print.keywordDict call.world.heap call.arguments)).format texts

end BuiltinCall

/-- Whether a collecting output gains exactly the given texts from one world to another. -/
def World.Gains (texts : List String) (before after : World) : Prop :=
  before.output.sink = .collecting →
    after.output = { before.output with text := before.output.text ++ String.join texts }

namespace World.Gains

variable {before middle after : World} {first second : List String}

theorem of_eq (hsame : after.output = before.output) : Gains [] before after := by
  intro _
  rw [hsame, String.join_nil, String.append_empty]

theorem sink_eq (hgains : Gains first before after) (hsink : before.output.sink = .collecting) :
    after.output.sink = .collecting := by
  rw [hgains hsink]
  exact hsink

theorem congr {start final : World} (hgains : Gains first before after)
    (hstart : start.output = before.output) (hfinal : final.output = after.output) :
    Gains first start final := by
  rw [Gains, hstart, hfinal]
  exact hgains

theorem trans (hfirst : Gains first before middle) (hsecond : Gains second middle after) :
    Gains (first ++ second) before after := by
  intro hsink
  rw [hsecond (hfirst.sink_eq hsink), hfirst hsink, String.join_append, String.append_assoc]

end World.Gains

/-! ### Programs that write nothing -/

/-- Only writing and flushing is a matter of the output. -/
theorem Effect.answer_output {settings : Settings} {Answer : Type} {effect : Effect Answer}
    (hmute : effect.Permitted .mute) (world : World) :
    (effect.answer settings world).2.output = world.output := by
  cases effect with
  | permitBits bits => simp only [Effect.answer]; split <;> rfl
  | newClass definition =>
    simp only [Effect.answer, World.createClass]
    split <;> rfl
  | storeAttribute holder name content =>
    simp only [Effect.answer, World.storeAttribute]
    split <;> rfl
  | fillCell cell content =>
    simp only [Effect.answer, World.fillCell]
    split <;> rfl
  | takeItem iterator => simp only [Effect.answer]; split <;> rfl
  | write | flush => exact absurd hmute id
  | importModule request =>
    simp only [Effect.answer, World.importModule]
    split
    · rfl
    · split <;> rfl
  | compileSource request =>
    simp only [Effect.answer, World.compileSource]
    split
    · rfl
    · split <;> rfl
  | enterBody code =>
    simp only [Effect.answer, World.enterBody]
    split
    · rfl
    · split
      · rfl
      · split <;> rfl
  | _ => rfl

section

variable {settings : Settings}
  {respond : {Answer : Type} → Request Answer → World → Ending Answer × World}
  {inside : {Answer : Type} → Request Answer → World → List BuiltinCall}
  {Result First Second : Type} {world reached : World}

theorem BuiltinCall.texts_append (first second : List BuiltinCall) :
    texts settings (first ++ second) = texts settings first ++ texts settings second :=
  List.filterMap_append

/-- Whether a run of a program adds what the calls in its requests print. -/
def Program.Prints (settings : Settings)
    (respond : {Answer : Type} → Request Answer → World → Ending Answer × World)
    (inside : {Answer : Type} → Request Answer → World → List BuiltinCall)
    (program : Program Result) (world : World) : Prop :=
  World.Gains (BuiltinCall.texts settings (program.calls settings respond inside world)) world
    (program.run settings respond world).2

/-- A program after another one adds what it adds itself after what that one adds. -/
theorem Program.Prints.bind {program : Program First} {next : First → Program Second}
    (hprogram : program.Prints settings respond inside world)
    (hnext : ∀ result reached, program.run settings respond world = (.value result, reached) →
      (next result).Prints settings respond inside reached) :
    (program >>= next).Prints settings respond inside world := by
  rw [Prints, calls, asked_bind, run_bind_apply, List.flatMap_append, BuiltinCall.texts_append]
  refine hprogram.trans ?_
  rcases Ending.value_or_cut (program.run settings respond world) with
    ⟨result, hrun⟩ | ⟨cut, hrun⟩
  · have hlater := hnext result _ hrun
    rw [hrun]
    exact hlater
  · rw [hrun, cut.onward_ending, cut.andThen_ending]
    exact .of_eq rfl

/-- A program that writes nothing itself adds what its requests add. -/
theorem Program.Obeys.prints
    (hrespond : ∀ {Answer : Type} (request : Request Answer) (world : World),
      World.Gains (BuiltinCall.texts settings (inside request world)) world
        (respond request world).2)
    {program : Program Result} (hobeys : program.Obeys .mute) (world : World) :
    program.Prints settings respond inside world := by
  induction program generalizing world with
  | done | raise | fault => exact .of_eq rfl
  | perform effect next ih =>
    have heffect : (Program.effect effect).Prints settings respond inside world := by
      rw [Prints, calls, asked_effect, run_effect]
      exact .of_eq (Effect.answer_output hobeys.1 world)
    exact heffect.bind fun answer reached _ ↦
      ih answer (hobeys.2 answer (effect.answers_of_marks (fun _ ↦ trivial) answer)) reached
  | ask request next ih =>
    have hrequest : (Program.request request).Prints settings respond inside world := by
      rw [Prints, calls, asked_request, run_request, List.flatMap_singleton]
      exact hrespond request world
    exact hrequest.bind fun answer reached _ ↦ ih answer (hobeys.2 answer) reached
  | attempt handler body next ihbody ihnext =>
    obtain ⟨-, hbody, hnext⟩ := hobeys
    rw [Prints, calls, asked_attempt, List.flatMap_append, BuiltinCall.texts_append]
    refine (ihbody hbody world).trans ?_
    rw [run]
    generalize body.run settings respond world = outcome
    obtain ⟨ending, after⟩ := outcome
    cases ending with
    | value answer => exact ihnext _ (hnext _) after
    | raised exception =>
      by_cases htaken : handler.takes exception = true
      · simp only [Ending.handledOnward, Ending.handled, if_pos htaken]
        exact ihnext _ (hnext _) after
      · simp only [Ending.handledOnward, Ending.handled, if_neg htaken]
        exact .of_eq rfl
    | fault | exhausted => exact .of_eq rfl

/-! ### Printing -/

namespace Output

variable {output : Output}

theorem write_of_collecting (hsink : output.sink = .collecting) (text : String) :
    output.write text = .ok { output with text := output.text ++ text } := by
  simp only [write, hsink]

theorem flush_of_collecting (hsink : output.sink = .collecting) : output.flush = .ok output := by
  simp only [flush, hsink]

end Output

namespace Print

/-- A collecting output takes every text, and flushing it changes nothing. -/
theorem exists_of_output (hsink : world.output.sink = .collecting) (options : Options)
    (texts : List String) :
    ∃ final, (output options texts).Gives settings respond world [] .null final ∧
      World.Gains [options.format texts] world final := by
  let written : World := { world with output :=
    { world.output with text := world.output.text ++ options.format texts } }
  have hwrite : (Program.effect (.write (options.format texts))).Gives settings respond world []
      () written := by
    refine Program.gives_effect ?_
    rw [Effect.answer, World.emit, Output.write_of_collecting hsink]
  have hflush : (Program.effect .flush).Gives settings respond written [] () written := by
    refine Program.gives_effect ?_
    have hcollecting : written.output.sink = .collecting := hsink
    rw [Effect.answer, World.emit, Output.flush_of_collecting hcollecting]
  refine ⟨written, ?_, fun _ ↦ ?_⟩
  · rw [output]
    cases options.flushes with
    | false => exact hwrite.bind (Program.gives_done _ _)
    | true => exact hwrite.bind (hflush.bind (Program.gives_done _ _))
  · rw [String.join_cons, String.join_nil, String.append_empty]

/-- A call of `print` with keywords that are refused does nothing. -/
theorem stops_run {arguments : Arguments} {exception : Exception}
    (hkeywords : Options.ofKeywords world.heap (arguments.keywordList world.heap) =
      .error exception) :
    (run arguments).Stops settings respond world [] (.raised exception) world :=
  (Program.leads_heap _ world).stops ((Program.stops_ofExcept hkeywords world).bind _)

/-- A call of `print` with accepted keywords converts its values and then writes the text. -/
theorem leads_run {arguments : Arguments} {options : Options}
    (hkeywords : Options.ofKeywords world.heap (arguments.keywordList world.heap) = .ok options) :
    (run arguments).Leads settings respond world
      (convertAll arguments.positional >>= output options) world :=
  (Program.leads_heap _ world).trans ((Program.gives_ofExcept hkeywords world).leads _)

/-- A call of `print` adds what is printed in its conversions, and then its text if it gives a
value. -/
theorem gains_run
    (hrespond : ∀ {Answer : Type} (request : Request Answer) (world : World),
      World.Gains (BuiltinCall.texts settings (inside request world)) world
        (respond request world).2) (arguments : Arguments) (world : World) :
    let outcome := (run arguments).run settings respond world
    World.Gains (BuiltinCall.texts settings ((run arguments).calls settings respond inside world) ++
      (if outcome.1.isValue then text? settings respond arguments world else none).toList) world
      outcome.2 := by
  intro outcome hsink
  cases hkeywords : Options.ofKeywords world.heap (arguments.keywordList world.heap) with
  | error exception =>
    have hstops := @stops_run settings respond _ _ _ hkeywords
    have houtcome : outcome = (.raised exception, world) := hstops.run
    rw [Program.calls, hstops.asked, houtcome]
    exact World.Gains.of_eq rfl hsink
  | ok options =>
    have hleads := @leads_run settings respond _ _ _ hkeywords
    have hconversions :=
      (obeys_convertAll arguments.positional : (convertAll _).Obeys .mute).prints hrespond world
    rcases Ending.value_or_cut ((convertAll arguments.positional).run settings respond world) with
      ⟨texts, hrun⟩ | ⟨cut, hrun⟩
    · obtain ⟨final, hgives, hgains⟩ := @exists_of_output settings respond _
        (hconversions.sink_eq hsink) options texts
      have hconverted : (convertAll arguments.positional).Gives settings respond world _ texts _ :=
        ⟨rfl, hrun⟩
      have hall := hleads.gives (hconverted.bind hgives)
      have htext : text? settings respond arguments world = some (options.format texts) := by
        rw [text?, hkeywords, hrun]
      have houtcome : outcome = (.value .null, final) := hall.run
      rw [Program.calls, hall.asked, houtcome, List.append_nil, htext]
      exact hconversions.trans hgains hsink
    · have hstops : (run arguments).Stops settings respond world _ cut _ :=
        hleads.stops (Program.Stops.bind ⟨rfl, hrun⟩ _)
      have houtcome : outcome = (cut.ending, _) := hstops.run
      have hfails : (cut.ending : Ending Value).isValue = false := by cases cut <;> rfl
      rw [Program.calls, hstops.asked, houtcome, hfails]
      exact hconversions.trans (.of_eq rfl) hsink

end Print

/-! ### Requests -/

/-- The program of a call of `print` is that of printing. -/
theorem BuiltinCall.leads_print {call : BuiltinCall} (hprint : call.builtin = .print) :
    call.program.Leads settings respond call.began (Print.run call.arguments) call.began := by
  rw [program, hprint]
  exact Program.leads_heap _ _

section

variable {patience : Nat}
  (hanswer : ∀ {Answer : Type} (request : Request Answer) (world : World),
    World.Gains (BuiltinCall.texts settings (request.completed settings patience world)) world
      (request.answer settings patience world).2)

include hanswer

/-- A call of a builtin function adds what is printed in it, and then its text if it is a successful
call of `print`. -/
theorem BuiltinCall.gains {call : BuiltinCall} (hpatience : call.patience = patience + 1)
    (hlimit : ¬settings.limits.maxDepth ≤ call.world.depth) :
    World.Gains (texts settings (call.program.calls settings (Request.answer settings patience)
      (Request.completed settings patience) call.began ++ [call])) call.world
        (call.outcome settings).2 := by
  have houtcome := call.outcome_of_entered hpatience hlimit
  have hself : texts settings [call] = (call.text? settings).toList := by
    rw [texts, List.filterMap_cons]
    cases call.text? settings <;> rfl
  rw [texts_append, hself, text?, hpatience, Nat.add_sub_cancel]
  -- Only `print` writes; the program of every other function obeys the mute policy.
  by_cases hprint : call.builtin = .print
  · have hprinted : call.printed settings =
        ((Print.run call.arguments).run settings (Request.answer settings patience)
          call.began).1.isValue := by
      rw [printed, decide_eq_true hprint, Bool.true_and, houtcome, (call.leads_print hprint).run]
    rw [Program.calls, (call.leads_print hprint).asked, hprinted, houtcome,
      (call.leads_print hprint).run]
    exact Print.gains_run hanswer call.arguments call.began
  · have hprinted : call.printed settings = false := by
      rw [printed, decide_eq_false hprint, Bool.false_and]
    have hother : Value.builtin (.function call.builtin) ≠ .builtin (.function .print) :=
      fun hsame ↦ hprint (Builtin.function.inj (Value.builtin.inj hsame))
    have hobeys := Call.obeys_dispatch (Policy.mute_coversCall hother call.arguments)
    rw [hprinted, houtcome]
    simp only [Bool.false_eq_true, if_false, Option.toList_none, List.append_nil]
    exact hobeys.prints hanswer call.began

end

theorem Request.output_call {patience : Nat} {callable : Value} {arguments : Arguments}
    (hlimit : ¬settings.limits.maxDepth ≤ world.depth) :
    ((Request.call callable arguments).answer settings (patience + 1) world).2.output =
      ((Call.dispatch callable arguments).run settings (Request.answer settings patience)
        (world.entered callable arguments)).2.output := by
  rw [answer, World.deeper, if_neg hlimit]
  unfold Call.run World.entered
  cases callable with
  | builtin builtin => cases builtin <;> rfl
  | _ => rfl

/-- While a request is answered, a collecting output gains the texts of the successful calls of
`print` that are completed. -/
theorem Request.gains (patience : Nat) {Answer : Type} (request : Request Answer) (world : World) :
    World.Gains (BuiltinCall.texts settings (request.completed settings patience world)) world
      (request.answer settings patience world).2 := by
  induction patience generalizing Answer world with
  | zero => exact .of_eq rfl
  | succ patience ih =>
    cases request with
    | call callable arguments =>
      rw [completed]
      split
      next hlimit =>
        rw [answer, World.deeper, if_pos hlimit]
        exact .of_eq rfl
      next hlimit =>
        by_cases hbuiltin : ∃ builtin, callable = .builtin (.function builtin)
        · obtain ⟨builtin, rfl⟩ := hbuiltin
          exact @BuiltinCall.gains settings patience ih ⟨builtin, arguments, patience + 1, world⟩
            rfl hlimit
        · have hother : ∀ builtin, callable ≠ .builtin (.function builtin) :=
            fun builtin hsame ↦ hbuiltin ⟨builtin, hsame⟩
          have hobeys := Call.obeys_dispatch (Policy.mute_coversCall (hother .print) arguments)
          have hnone : BuiltinCall.of? callable arguments (patience + 1) world = none := by
            unfold BuiltinCall.of?
            split
            · exact absurd rfl (hother _)
            · rfl
          have houtput : (world.entered callable arguments).output = world.output := by
            unfold World.entered
            split <;> rfl
          rw [hnone, Option.toList_none, List.append_nil]
          exact (hobeys.prints ih _).congr houtput.symm (output_call hlimit)
    | runCode frame code =>
      rw [completed]
      split
      next hlimit =>
        rw [answer, World.deeper, if_pos hlimit]
        exact .of_eq rfl
      next hlimit =>
        have hobeys : (Script.runCode frame code).Obeys .mute :=
          Script.obeys_runCode Policy.mute_coversScripts ⟨trivial, trivial⟩ code
        rw [answer, World.deeper, if_neg hlimit]
        exact (hobeys.prints ih _).congr rfl rfl
    | drain iterator =>
      have hadvance : (Operation.advance iterator).Obeys .mute := Operation.obeys_advance trivial
      -- First comes what the step prints, and then what the draining of the rest prints.
      rw [completed, answer, BuiltinCall.texts_append]
      refine (hadvance.prints ih world).trans ?_
      generalize (Operation.advance iterator).run settings (answer settings patience) world =
        outcome
      obtain ⟨ending, reached⟩ := outcome
      cases ending with
      | value step =>
        cases step with
        | exhausted => exact .of_eq rfl
        | produced item =>
          exact (ih (.drain iterator) reached).congr rfl
            (congrArg World.output (Ending.andThen_world (List.cons item) _))
      | raised | fault | exhausted => exact .of_eq rfl

/-! ### Successful calls -/

/-- A call of `print` that gives a value has accepted keywords and has converted its values. -/
theorem Print.exists_of_isValue {arguments : Arguments}
    (hvalue : ((run arguments).run settings respond world).1.isValue) :
    ∃ options texts,
      Options.ofKeywords world.heap (arguments.keywordList world.heap) = .ok options ∧
        ((convertAll arguments.positional).run settings respond world).1 = .value texts := by
  cases hkeywords : Options.ofKeywords world.heap (arguments.keywordList world.heap) with
  | error exception =>
    rw [(stops_run hkeywords).run] at hvalue
    cases hvalue
  | ok options =>
    rw [(leads_run hkeywords).run, Program.run_bind_apply] at hvalue
    rcases Ending.value_or_cut ((convertAll arguments.positional).run settings respond world) with
      ⟨texts, hrun⟩ | ⟨cut, hrun⟩
    · exact ⟨options, texts, rfl, congrArg Prod.fst hrun⟩
    · rw [hrun, cut.andThen_ending] at hvalue
      cases cut <;> cases hvalue

namespace BuiltinCall

/-- A successful call of `print` has a text. -/
theorem exists_of_printed {call : BuiltinCall} (hprinted : call.printed settings) :
    ∃ text, call.text? settings = some text ∧ call.Writes settings text := by
  obtain ⟨hprint, hvalue⟩ := Bool.and_eq_true_iff.mp hprinted
  have hrun : ((Print.run call.arguments).run settings (Request.answer settings (call.patience - 1))
      call.began).1.isValue := by
    cases hpatience : call.patience with
    | zero =>
      rw [outcome, hpatience] at hvalue
      cases hvalue
    | succ patience =>
      by_cases hlimit : settings.limits.maxDepth ≤ call.world.depth
      · rw [call.outcome_of_limit hpatience hlimit] at hvalue
        cases hvalue
      · rw [call.outcome_of_entered hpatience hlimit] at hvalue
        rw [Nat.add_sub_cancel, ← (call.leads_print (of_decide_eq_true hprint)).run]
        exact hvalue
  obtain ⟨options, texts, hkeywords, htexts⟩ := Print.exists_of_isValue hrun
  refine ⟨options.format texts, ?_, texts, htexts, ?_⟩
  · rw [text?, if_pos hprinted, Print.text?, hkeywords, htexts]
  · have hkeywords' : Print.Options.ofKeywords call.world.heap
        (Print.keywordDict call.world.heap call.arguments).toList = .ok options := by
      rw [Print.toList_keywordDict]
      exact hkeywords
    rw [(Print.Options.ofKeywords_eq_ok_iff.mp hkeywords').2]

/-- The successful calls of `print` among calls, and their texts. -/
theorem writes_texts (calls : List BuiltinCall) :
    List.Forall₂ (Writes settings) (calls.filter (printed settings)) (texts settings calls) := by
  induction calls with
  | nil => exact .nil
  | cons call rest ih =>
    rw [texts, List.filterMap_cons]
    by_cases hprinted : call.printed settings = true
    · obtain ⟨text, hsome, hwrites⟩ := exists_of_printed hprinted
      rw [List.filter_cons_of_pos hprinted, hsome]
      exact .cons hwrites ih
    · rw [List.filter_cons_of_neg hprinted, text?, if_neg hprinted]
      exact ih

end BuiltinCall

end

/-! ### Sessions -/

namespace Session

/-- In the steps of a session a collecting output gains the texts of the successful calls of
`print`. -/
theorem gains_after (patience : Nat) (session : Session) (statements : List Script.Statement) :
    World.Gains (BuiltinCall.texts session.settings (session.completed patience statements))
      session.world (session.after patience statements).world := by
  induction statements generalizing session with
  | nil => exact .of_eq rfl
  | cons statement rest ih =>
    have hobeys : (Script.runStep session.frame statement).Obeys .mute :=
      Script.obeys_runStep Policy.mute_coversScripts ⟨trivial, trivial⟩ fun _ _ ↦ trivial
    rw [completed, BuiltinCall.texts_append]
    exact (hobeys.prints (Request.gains patience) session.world).trans
      (ih (session.stepWithin patience statement).2)

theorem addModules_output (names : List String) (world : World) :
    (addModules names world).2.output = world.output := by
  induction names generalizing world with
  | nil => rfl
  | cons name rest ih => exact ih (addModule name world).2

theorem output_start (configuration : Configuration) :
    (start configuration).world.output = .start configuration.sink :=
  addModules_output (configuration.modules.getD []) _

/-- A collecting output has collected the texts of the successful calls of `print`. -/
theorem exists_texts {configuration : Configuration} (hsink : configuration.sink = .collecting)
    (patience : Nat) (statements : List Script.Statement) :
    let session := start configuration
    ∃ texts, List.Forall₂ (BuiltinCall.Writes session.settings)
        ((session.completed patience statements).filter (BuiltinCall.printed session.settings))
        texts ∧
      (session.after patience statements).world.output.text = String.join texts := by
  intro session
  have hstart : session.world.output = .start configuration.sink := output_start configuration
  have hcollecting : session.world.output.sink = .collecting := by rw [hstart, ← hsink]; rfl
  refine ⟨_, BuiltinCall.writes_texts (session.completed patience statements), ?_⟩
  rw [gains_after patience session statements hcollecting, hstart]
  exact String.empty_append

/-- A call of `print` writes all or nothing. Whatever surrounds it, it takes one of the courses of
`Print.Course`, and so do the calls of a run. A run with a collecting output has collected the texts
of its successful calls of `print`, in the order of their completion, which is that in which their
returns are reported. -/
theorem print_all_or_nothing :
    (∀ (arguments : Arguments) (heap : Heap) (deeds : List Deed) (ending : Ending Value),
      (Print.run arguments).Does (.performs .heap (.value heap) :: deeds) ending →
        Print.Course arguments heap deeds ending) ∧
    (∀ (arguments : Arguments) (heap : Heap) (options : Print.Options),
      Print.Options.ofKeywords heap (arguments.keywordList heap) = .ok options ↔
        (∀ key value, (Print.keywordDict heap arguments).find? key = some value →
          Print.Accepts key value) ∧
        options = Print.Options.requested heap (Print.keywordDict heap arguments)) ∧
    (∀ (settings : Settings)
      (respond : {Answer : Type} → Request Answer → World → Ending Answer × World)
      (arguments : Arguments) (world : World),
      ∃ deeds, (Print.run arguments).deeds settings respond world =
          .performs .heap (.value world.heap) :: deeds ∧
        Print.Course arguments world.heap deeds
          ((Print.run arguments).run settings respond world).1) ∧
    ∀ (configuration : Configuration) (patience : Nat) (statements : List Script.Statement),
      let session := start configuration
      returns (session.historyOf patience statements) =
          (session.completed patience statements).map (BuiltinCall.closing session.settings) ∧
        (configuration.sink = .collecting →
          ∃ texts, List.Forall₂ (BuiltinCall.Writes session.settings)
              ((session.completed patience statements).filter
                (BuiltinCall.printed session.settings)) texts ∧
            (session.after patience statements).world.output.text = String.join texts) := by
  refine ⟨fun _ _ _ _ hdoes ↦ Print.course_of_does hdoes, fun arguments heap options ↦ ?_,
    fun settings respond arguments world ↦ Print.exists_course settings respond arguments world,
    fun configuration patience statements ↦ ⟨returns_historyOf patience _ statements,
      fun hsink ↦ exists_texts hsink patience statements⟩⟩
  rw [← Print.toList_keywordDict]
  exact Print.Options.ofKeywords_eq_ok_iff

/-! ### A session that prints while it prints -/

namespace Printing

open Script

/-- A call of `print`. -/
def print (values : List Expression) (keywords : List (String × Expression)) : Expression :=
  .callBuiltin "print" values (.pairs keywords)

/-- A class with one method `__str__`, under its name. -/
def create (name : String) (body : List Statement) : Statement :=
  .assign .globals name (creation type name [] [method "__str__" ["self"] body])

/-- A new object of a class. -/
def make (name : String) : Expression := .call (.variable name) [] .absent

/-- A class whose objects print when they are converted, and one whose objects cannot be converted;
an object of the first kind is printed, then one of each kind. -/
def statements : List Statement :=
  [create "Loud" [.evaluate (print [.literal (.text "in")] []), .result (.literal (.text "loud"))],
    create "Broken" [.raise .valueError none],
    .evaluate (print [make "Loud", .literal (.int 1)]
      [("sep", .literal (.text "-")), ("flush", .literal (.bool true))]),
    .evaluate (print [make "Loud", make "Broken"] []),
    .evaluate (print [.literal (.text "out")] [("end", .literal .null)])]

/-- What is printed is collected. -/
def configuration : Configuration := { Configuration.scripted with sink := .collecting }

/-- A call with one value. -/
def arguments : Arguments := .ofList [.text "a"]

/-- What the call does when the output is closed. -/
def refused : List Deed := [.performs .heap (.value .empty),
  .performs (.write "a\n") (Cut.raised Output.closed).ending]

theorem does_refused : (Print.run arguments).Does (.performs .heap (.value .empty) :: refused)
    (.raised Output.closed) := by
  refine Or.inl ⟨.empty, _, rfl, Or.inl ⟨.empty, _, rfl, Or.inr ⟨.raised Output.closed, ?_, rfl⟩⟩⟩
  rfl

end Printing

/-- The session has collected the texts of its four successful calls of `print`; the call whose
second value cannot be converted has written nothing. -/
theorem printed_within_print :
    Print.Course Printing.arguments .empty Printing.refused (.raised Output.closed) ∧
    ∃ texts, List.Forall₂ (BuiltinCall.Writes (start Printing.configuration).settings)
        (((start Printing.configuration).completed 6 Printing.statements).filter
          (BuiltinCall.printed (start Printing.configuration).settings)) texts ∧
      "in\nloud-1\nin\nout\n" = String.join texts := by
  obtain ⟨hcourses, -, -, hcollected⟩ := print_all_or_nothing
  obtain ⟨texts, hwrites, htext⟩ :=
    (hcollected Printing.configuration 6 Printing.statements).2 rfl
  refine ⟨hcourses _ _ _ _ Printing.does_refused, texts, hwrites, ?_⟩
  rw [← htext]
  decide +kernel

end Session

end Metaobject
