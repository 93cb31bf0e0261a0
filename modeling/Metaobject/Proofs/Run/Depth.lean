import Metaobject.Proofs.Run.History

/-!
# The depth of calls

The depth of nested calls over a run. Effects leave it as it is, and calls and the running of code
restore it however they end: the answer to a request leaves it as it was (`Request.answer_depth`).
What happens inside a call happens between one level deeper and the limit, and the depth is left
only where it was entered (`Moment.IsLevel`, `Request.history_isLevel`). At the limit a call is
refused, which is the only thing that happens (`Request.answer_of_limit`,
`Request.history_of_limit`).
-/

set_option autoImplicit false
set_option relaxedAutoImplicit false

namespace Metaobject

/-! ### The depth is restored -/

theorem World.createClass_depth (world : World) (definition : ClassDefinition) :
    (world.createClass definition).2.depth = world.depth := by
  unfold createClass
  split <;> rfl

theorem World.emit_depth (world : World) (operation : Output → Except Exception Output) :
    (world.emit operation).2.depth = world.depth := by
  unfold emit
  split <;> rfl

theorem World.enterBody_depth (settings : Settings) (world : World) (code : Address) :
    (world.enterBody settings code).2.depth = world.depth := by
  unfold enterBody
  split
  · rfl
  · split
    · rfl
    · split <;> rfl

theorem World.importModule_depth (settings : Settings) (world : World) (request : ImportRequest) :
    (world.importModule settings request).2.depth = world.depth := by
  unfold importModule
  split
  · rfl
  · dsimp only
    split <;> rfl

theorem World.compileSource_depth (settings : Settings) (world : World)
    (request : CompileRequest) : (world.compileSource settings request).2.depth = world.depth := by
  unfold compileSource
  split
  · rfl
  · split <;> rfl

/-- No effect changes the depth. -/
theorem Effect.answer_depth (settings : Settings) {Answer : Type} (effect : Effect Answer)
    (world : World) : (effect.answer settings world).2.depth = world.depth := by
  cases effect with
  | permitBits bits => simp only [Effect.answer]; split <;> rfl
  | newClass definition => exact world.createClass_depth definition
  | storeAttribute holder name content =>
    simp only [Effect.answer, World.storeAttribute]
    split <;> rfl
  | fillCell cell content =>
    simp only [Effect.answer, World.fillCell]
    split <;> rfl
  | takeItem iterator => simp only [Effect.answer]; split <;> rfl
  | write text => exact world.emit_depth fun output ↦ output.write text
  | flush => exact world.emit_depth Output.flush
  | importModule request => exact world.importModule_depth settings request
  | compileSource request => exact world.compileSource_depth settings request
  | enterBody code => exact world.enterBody_depth settings code
  | _ => rfl

theorem Ending.andThen_depth {First Second : Type} {outcome : Ending First × World}
    {next : First → World → Ending Second × World}
    (hnext : ∀ result world, (next result world).2.depth = world.depth) :
    (Ending.andThen outcome next).2.depth = outcome.2.depth := by
  obtain ⟨ending, world⟩ := outcome
  cases ending with
  | value result => exact hnext result world
  | raised | fault | exhausted => rfl

theorem Ending.handled_depth {First Second : Type} {handler : Handler}
    {outcome : Ending First × World}
    {next : Except Exception First → World → Ending Second × World}
    (hnext : ∀ result world, (next result world).2.depth = world.depth) :
    (Ending.handled handler outcome next).2.depth = outcome.2.depth := by
  obtain ⟨ending, world⟩ := outcome
  cases ending with
  | value result => exact hnext (.ok result) world
  | raised exception =>
    by_cases htaken : handler.takes exception = true
    · simp only [Ending.handled, if_pos htaken]
      exact hnext (.error exception) world
    · simp only [Ending.handled, if_neg htaken]
  | fault | exhausted => rfl

section

variable (settings : Settings)
  {respond : {Answer : Type} → Request Answer → World → Ending Answer × World}
  {inside : {Answer : Type} → Request Answer → World → List Moment}

/-- A program leaves the depth as it is if the answers to requests do. -/
theorem Program.run_depth
    (hrespond : ∀ {Answer : Type} (request : Request Answer) (world : World),
      (respond request world).2.depth = world.depth)
    {Result : Type} (program : Program Result) (world : World) :
    (program.run settings respond world).2.depth = world.depth := by
  induction program generalizing world with
  | done | raise | fault => rfl
  | perform effect next ih => rw [Program.run, Ending.andThen_depth ih, effect.answer_depth]
  | ask request next ih => rw [Program.run, Ending.andThen_depth ih, hrespond]
  | attempt handler body next ihbody ihnext =>
    rw [Program.run, Ending.handled_depth ihnext, ihbody]

/-- Going one level deeper restores the depth, whether or not the limit refuses it. -/
theorem World.deeper_depth {Result : Type} {part : World → Ending Result × World}
    (hpart : ∀ world, (part world).2.depth = world.depth) (world : World) :
    (world.deeper settings part).2.depth = world.depth := by
  unfold deeper
  split
  · rfl
  · exact congrArg (· - 1) (hpart { world with depth := world.depth + 1 })

theorem Call.run_depth
    (hrespond : ∀ {Answer : Type} (request : Request Answer) (world : World),
      (respond request world).2.depth = world.depth)
    (callable : Value) (arguments : Arguments) (world : World) :
    (Call.run settings respond callable arguments world).2.depth = world.depth := by
  have hprogram := Program.run_depth settings hrespond (Call.dispatch callable arguments)
  cases callable with
  | builtin builtin => cases builtin <;> exact hprogram _
  | _ => exact hprogram world

/-- The answer to a request leaves the depth as it was, however it ends. -/
theorem Request.answer_depth (patience : Nat) {Answer : Type} (request : Request Answer)
    (world : World) : (request.answer settings patience world).2.depth = world.depth := by
  induction patience generalizing Answer request world with
  | zero => rfl
  | succ patience ih =>
    cases request with
    | call callable arguments =>
      exact World.deeper_depth settings (Call.run_depth settings ih callable arguments) world
    | runCode frame code =>
      exact World.deeper_depth settings (Program.run_depth settings ih _) world
    | drain iterator =>
      refine (Ending.andThen_depth fun step reached ↦ ?_).trans
        (Program.run_depth settings ih _ world)
      cases step with
      | exhausted => rfl
      | produced item =>
        rw [Ending.andThen_world (List.cons item)]
        exact ih (.drain iterator) reached

/-! ### Levels -/

/-- The depth that an event gives. The construction of a class gives none. -/
def TraceEvent.depth? : TraceEvent → Option Nat
  | .builtinCall _ _ depth | .builtinReturn _ _ depth => some depth
  | .metaclassResolved _ _ | .classBuilt _ _ => none

/-- Whether effects and reports happen at a depth from `least` to the limit, the reported depth is
the one at which they happen, and the depth changes only by entering and leaving. It is left one
lower, so it never falls below zero. -/
def Moment.IsLevel (settings : Settings) (least : Nat) (moment : Moment) : Prop :=
  match moment.action with
  | .performs _ =>
    least ≤ moment.before.depth ∧ moment.before.depth ≤ settings.limits.maxDepth ∧
      moment.after.depth = moment.before.depth
  | .reports event =>
    least ≤ moment.before.depth ∧ moment.before.depth ≤ settings.limits.maxDepth ∧
      moment.after.depth = moment.before.depth ∧ event.depth? = some moment.before.depth
  | .asks _ => moment.after = moment.before
  | .enters =>
    moment.after.depth = moment.before.depth + 1 ∧ moment.after.depth ≤ settings.limits.maxDepth
  | .leaves => moment.before.depth = moment.after.depth + 1
  | .refuses => moment.after = moment.before ∧ settings.limits.maxDepth ≤ moment.before.depth

theorem Moment.IsLevel.mono {settings : Settings} {least lower : Nat} {moment : Moment}
    (hlevel : moment.IsLevel settings least) (hlower : lower ≤ least) :
    moment.IsLevel settings lower := by
  obtain ⟨action, before, after⟩ := moment
  cases action with
  | performs | reports => exact ⟨Nat.le_trans hlower hlevel.1, hlevel.2⟩
  | asks | enters | leaves | refuses => exact hlevel

/-- What happens in a program happens at its level, if what happens for its requests does. -/
theorem Program.history_isLevel
    (hrespond : ∀ {Answer : Type} (request : Request Answer) (world : World),
      (respond request world).2.depth = world.depth)
    (hinside : ∀ {Answer : Type} (request : Request Answer) (world : World),
      world.depth ≤ settings.limits.maxDepth →
        ∀ moment ∈ inside request world, moment.IsLevel settings world.depth)
    {Result : Type} (program : Program Result) (world : World)
    (hlimit : world.depth ≤ settings.limits.maxDepth) :
    ∀ moment ∈ program.history settings respond inside world,
      moment.IsLevel settings world.depth := by
  induction program generalizing world with
  | done | raise | fault => exact fun _ hmoment ↦ absurd hmoment List.not_mem_nil
  | perform effect next ih =>
    have hdepth := effect.answer_depth settings world
    intro moment hmoment
    rcases List.mem_cons.mp hmoment with rfl | hlater
    · exact ⟨Nat.le_refl _, hlimit, hdepth⟩
    · obtain ⟨answer, -, hnext⟩ := Ending.mem_onward.mp hlater
      exact hdepth ▸ ih answer _ (hdepth.symm ▸ hlimit) moment hnext
  | ask request next ih =>
    have hdepth := hrespond request world
    intro moment hmoment
    rcases List.mem_append.mp hmoment with hrequest | hlater
    · exact hinside request world hlimit moment hrequest
    · obtain ⟨answer, -, hnext⟩ := Ending.mem_onward.mp hlater
      exact hdepth ▸ ih answer _ (hdepth.symm ▸ hlimit) moment hnext
  | attempt handler body next ihbody ihnext =>
    have hdepth := Program.run_depth settings hrespond body world
    intro moment hmoment
    rcases List.mem_append.mp hmoment with hbody | hlater
    · exact ihbody world hlimit moment hbody
    · obtain ⟨_, -, hnext⟩ | ⟨_, -, hnext⟩ := Ending.exists_of_mem_handledOnward hlater <;>
        exact hdepth ▸ ihnext _ _ (hdepth.symm ▸ hlimit) moment hnext

/-- What happens one level deeper happens at that level. -/
theorem World.deeperHistory_isLevel {Result : Type} {part : World → Ending Result × World}
    {history : World → List Moment} (hpart : ∀ world, (part world).2.depth = world.depth)
    (hhistory : ∀ world : World, world.depth ≤ settings.limits.maxDepth →
      ∀ moment ∈ history world, moment.IsLevel settings world.depth) (world : World) :
    ∀ moment ∈ world.deeperHistory settings part history,
      moment.IsLevel settings (world.depth + 1) := by
  intro moment hmoment
  unfold deeperHistory at hmoment
  split at hmoment
  · rename_i hlimit
    obtain rfl := List.mem_singleton.mp hmoment
    exact ⟨rfl, hlimit⟩
  · rename_i hlimit
    have hbelow : world.depth + 1 ≤ settings.limits.maxDepth := Nat.lt_of_not_le hlimit
    have hdepth := hpart { world with depth := world.depth + 1 }
    rcases List.mem_append.mp hmoment with hearlier | hlast
    · rcases List.mem_cons.mp hearlier with rfl | hinner
      · exact ⟨rfl, hbelow⟩
      · exact hhistory { world with depth := world.depth + 1 } hbelow moment hinner
    · obtain rfl := List.mem_singleton.mp hlast
      show _ = _ - 1 + 1
      rw [hdepth]
      rfl

theorem Call.history_isLevel
    (hrespond : ∀ {Answer : Type} (request : Request Answer) (world : World),
      (respond request world).2.depth = world.depth)
    (hinside : ∀ {Answer : Type} (request : Request Answer) (world : World),
      world.depth ≤ settings.limits.maxDepth →
        ∀ moment ∈ inside request world, moment.IsLevel settings world.depth)
    (callable : Value) (arguments : Arguments) (world : World)
    (hlimit : world.depth ≤ settings.limits.maxDepth) :
    ∀ moment ∈ Call.history settings respond inside callable arguments world,
      moment.IsLevel settings world.depth := by
  have hprogram := Program.history_isLevel settings hrespond hinside
    (Call.dispatch callable arguments)
  cases callable with
  | builtin builtin =>
    cases builtin with
    | function builtin =>
      have hdepth := Program.run_depth settings hrespond
        (Call.dispatch (.builtin (.function builtin)) arguments)
        (world.observe (.builtinCall builtin.name arguments.count world.depth))
      intro moment hmoment
      rcases List.mem_append.mp hmoment with hearlier | hlast
      · rcases List.mem_cons.mp hearlier with rfl | hinner
        · exact ⟨Nat.le_refl _, hlimit, rfl, rfl⟩
        · exact hprogram (world.observe _) hlimit moment hinner
      · obtain rfl := List.mem_singleton.mp hlast
        have hreached : world.depth = _ := hdepth.symm
        exact ⟨Nat.le_of_eq hreached, hreached ▸ hlimit, rfl, congrArg some hreached⟩
    | type | exception => exact hprogram world hlimit
  | _ => exact hprogram world hlimit

/-! ### Requests that go deeper -/

/-- Whether a request goes one level deeper: calls and the running of code do. -/
def Request.Deepens : {Answer : Type} → Request Answer → Prop
  | _, .call _ _ | _, .runCode _ _ => True
  | _, .drain _ => False

variable {patience : Nat}

theorem Request.opening_isLevel
    (hhistory : ∀ {Answer : Type} (request : Request Answer) (world : World),
      world.depth ≤ settings.limits.maxDepth →
        ∀ moment ∈ request.history settings patience world, moment.IsLevel settings world.depth)
    {Answer : Type} (request : Request Answer) (world : World)
    (hlimit : world.depth ≤ settings.limits.maxDepth) :
    ∀ moment ∈ opening (history settings patience) request world,
      moment.IsLevel settings world.depth := by
  intro moment hmoment
  rcases List.mem_cons.mp hmoment with rfl | hlater
  · exact rfl
  · exact hhistory request world hlimit moment hlater

/-- One more patience: what happens for a request that goes deeper happens deeper. -/
theorem Request.history_succ_isLevel
    (hhistory : ∀ {Answer : Type} (request : Request Answer) (world : World),
      world.depth ≤ settings.limits.maxDepth →
        ∀ moment ∈ request.history settings patience world, moment.IsLevel settings world.depth)
    {Answer : Type} (request : Request Answer) (hdeepens : request.Deepens) (world : World) :
    ∀ moment ∈ request.history settings (patience + 1) world,
      moment.IsLevel settings (world.depth + 1) := by
  have hrespond := fun {Answer : Type} (request : Request Answer) ↦
    request.answer_depth settings patience
  have hinside := fun {Answer : Type} (request : Request Answer) ↦
    request.opening_isLevel settings hhistory
  cases request with
  | call callable arguments =>
    exact World.deeperHistory_isLevel settings
      (Call.run_depth settings hrespond callable arguments)
      (Call.history_isLevel settings hrespond hinside callable arguments) world
  | runCode frame code =>
    exact World.deeperHistory_isLevel settings (Program.run_depth settings hrespond _)
      (Program.history_isLevel settings hrespond hinside _) world
  | drain iterator => exact hdeepens.elim

/-- What happens for a request happens at the level of the request or deeper. -/
theorem Request.history_isLevel (patience : Nat) {Answer : Type} (request : Request Answer)
    (world : World) (hlimit : world.depth ≤ settings.limits.maxDepth) :
    ∀ moment ∈ request.history settings patience world, moment.IsLevel settings world.depth := by
  induction patience generalizing Answer request world with
  | zero => exact fun _ hmoment ↦ absurd hmoment List.not_mem_nil
  | succ patience ih =>
    cases request with
    | call callable arguments =>
      exact fun moment hmoment ↦ (Request.history_succ_isLevel settings ih
        (.call callable arguments) trivial world moment hmoment).mono (Nat.le_succ _)
    | runCode frame code =>
      exact fun moment hmoment ↦ (Request.history_succ_isLevel settings ih
        (.runCode frame code) trivial world moment hmoment).mono (Nat.le_succ _)
    | drain iterator =>
      have hrespond := fun {Answer : Type} (request : Request Answer) ↦
        request.answer_depth settings patience
      have hdepth := Program.run_depth settings hrespond (Operation.advance iterator) world
      intro moment hmoment
      rcases List.mem_append.mp hmoment with hstep | hlater
      · exact Program.history_isLevel settings hrespond
          (fun request ↦ request.opening_isLevel settings ih) _ world hlimit moment hstep
      · obtain ⟨step, -, hnext⟩ := Ending.mem_onward.mp hlater
        cases step with
        | exhausted => exact absurd hnext List.not_mem_nil
        | produced => exact hdepth ▸ ih (.drain iterator) _ (hdepth.symm ▸ hlimit) moment hnext

/-- What happens inside a call or the running of code happens one level deeper. -/
theorem Request.history_isLevel_deeper (patience : Nat) {Answer : Type} (request : Request Answer)
    (hdeepens : request.Deepens) (world : World) :
    ∀ moment ∈ request.history settings patience world,
      moment.IsLevel settings (world.depth + 1) := by
  cases patience with
  | zero => exact fun _ hmoment ↦ absurd hmoment List.not_mem_nil
  | succ patience =>
    exact Request.history_succ_isLevel settings (Request.history_isLevel settings patience) request
      hdeepens world

/-! ### The limit -/

/-- At the limit a request that goes deeper is refused. -/
theorem Request.answer_of_limit (patience : Nat) {Answer : Type} (request : Request Answer)
    (hdeepens : request.Deepens) {world : World}
    (hlimit : settings.limits.maxDepth ≤ world.depth) :
    request.answer settings (patience + 1) world = (.raised .recursionLimit, world) := by
  cases request with
  | call | runCode => exact if_pos hlimit
  | drain => exact hdeepens.elim

/-- At the limit nothing happens but the refusal. -/
theorem Request.history_of_limit (patience : Nat) {Answer : Type} (request : Request Answer)
    (hdeepens : request.Deepens) {world : World}
    (hlimit : settings.limits.maxDepth ≤ world.depth) :
    request.history settings (patience + 1) world = [⟨.refuses, world, world⟩] := by
  cases request with
  | call | runCode => exact if_pos hlimit
  | drain => exact hdeepens.elim

end

end Metaobject
