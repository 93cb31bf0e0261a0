import Metaobject.Proofs.Run.Frames
import Metaobject.Proofs.Run.Patience

/-!
# Requests are answered

With more patience than there are levels left below the limit of the call depth every request is
answered, unless an iterator of a user class is drained (`Request.answer_ends`). A program is a
finite tree, so it ends if its requests are answered (`Program.Obeys.ends`); a call and the running
of code ask for the answers to their own requests one level deeper; and the draining of a value
without `__next__` ends at its first step (`Operation.run_advance_of_none`). Native iterators are
never drained one item after the other: programs take all of their items at once (`Policy.foreign`).
-/

set_option autoImplicit false
set_option relaxedAutoImplicit false

namespace Metaobject

/-! ### Endings -/

namespace Ending

variable {First Second : Type} {outcome : Ending First × World}

theorem andThen_ends {next : First → World → Ending Second × World}
    (hends : outcome.1 ≠ .exhausted)
    (hnext : ∀ result, (∀ later, onward outcome later = later result outcome.2) →
      (next result outcome.2).1 ≠ .exhausted) : (andThen outcome next).1 ≠ .exhausted := by
  obtain ⟨ending, world⟩ := outcome
  cases ending with
  | value result => exact hnext result fun _ ↦ rfl
  | raised exception => exact raised_ne_exhausted exception
  | fault message => exact fault_ne_exhausted message
  | exhausted => exact absurd rfl hends

theorem handled_ends {handler : Handler} {next : Except Exception First → World →
      Ending Second × World} (hends : outcome.1 ≠ .exhausted)
    (hnext : ∀ result, (∀ later, handledOnward handler outcome later = later result outcome.2) →
      (next result outcome.2).1 ≠ .exhausted) : (handled handler outcome next).1 ≠ .exhausted := by
  obtain ⟨ending, world⟩ := outcome
  cases ending with
  | value result => exact hnext (.ok result) fun _ ↦ rfl
  | raised exception =>
    by_cases htaken : handler.takes exception = true
    · simp only [handled, if_pos htaken]
      exact hnext (.error exception) fun _ ↦ if_pos htaken
    · simp only [handled, if_neg htaken]
      exact raised_ne_exhausted exception
  | fault message => exact fault_ne_exhausted message
  | exhausted => exact absurd rfl hends

end Ending

theorem World.emit_ends (world : World) (operation : Output → Except Exception Output) :
    (world.emit operation).1 ≠ .exhausted := by
  unfold emit
  split
  · exact Ending.value_ne_exhausted _
  · exact Ending.raised_ne_exhausted _

/-- The world answers every effect. -/
theorem Effect.answer_ends (settings : Settings) {Answer : Type} (effect : Effect Answer)
    (world : World) : (effect.answer settings world).1 ≠ .exhausted := by
  cases effect with
  | write text => exact world.emit_ends fun output ↦ output.write text
  | flush => exact world.emit_ends Output.flush
  | permitBits bits =>
    simp only [answer]
    split
    · exact Ending.raised_ne_exhausted _
    · exact Ending.value_ne_exhausted _
  | newClass definition =>
    simp only [answer, World.createClass]
    split
    · exact Ending.raised_ne_exhausted _
    · exact Ending.value_ne_exhausted _
  | storeAttribute holder name content =>
    simp only [answer, World.storeAttribute]
    split <;> exact Ending.value_ne_exhausted _
  | fillCell cell content =>
    simp only [answer, World.fillCell]
    split
    · exact Ending.value_ne_exhausted _
    · exact Ending.fault_ne_exhausted _
  | takeItem iterator =>
    simp only [answer]
    split <;> exact Ending.value_ne_exhausted _
  | importModule request =>
    simp only [answer, World.importModule]
    split
    · exact Ending.raised_ne_exhausted _
    · split
      · exact Ending.value_ne_exhausted _
      · exact Ending.raised_ne_exhausted _
  | compileSource request =>
    simp only [answer, World.compileSource]
    split
    · exact Ending.fault_ne_exhausted _
    · split
      · exact Ending.raised_ne_exhausted _
      · exact Ending.value_ne_exhausted _
  | enterBody code =>
    simp only [answer, World.enterBody]
    split
    · exact Ending.fault_ne_exhausted _
    · split
      · exact Ending.fault_ne_exhausted _
      · split
        · exact Ending.value_ne_exhausted _
        · exact Ending.fault_ne_exhausted _
  | _ => exact Ending.value_ne_exhausted _

/-! ### What is drained -/

/-- The policy under which no native iterator is drained. Everything else is permitted. -/
def Policy.foreign : Policy :=
  { Policy.writing (fun _ ↦ True) True with
    drains := fun iterator ↦ ∀ address, iterator ≠ .iterator address }

theorem Policy.foreign_coversScripts : Policy.foreign.CoversScripts where
  refusals _ _ := trivial
  misuse := trivial
  drains _ hforeign := hforeign
  runs := trivial
  edits := trivial
  probe _ := trivial
  next _ := trivial

theorem Policy.foreign_coversCall (callable : Value) (arguments : Arguments) :
    Policy.foreign.CoversCall callable arguments where
  misuse := trivial
  function _ _ := ⟨foreign_coversScripts, fun _ ↦ ⟨trivial, trivial⟩⟩
  buildClass _ := trivial
  print _ := trivial
  collect _ _ hforeign := hforeign
  getattr _ _ _ _ _ := trivial
  hasattr _ _ _ _ := trivial
  next _ _ _ _ := trivial

/-- Whether the draining of an iterator begins at a moment and its class has `__next__`. -/
def Moment.DrainsUser (moment : Moment) : Prop :=
  ∃ iterator, moment.action = .asks (.drain iterator) ∧
    moment.before.heap.lookup "__next__" (moment.before.heap.typeOf iterator) ≠ none

/-- Whether the draining of an iterator begins at a moment. -/
def Moment.drains (moment : Moment) : Bool :=
  match moment.action with
  | .asks (.drain _) => true
  | _ => false

theorem Moment.DrainsUser.drains {moment : Moment} (hdrains : moment.DrainsUser) :
    moment.drains = true := by
  obtain ⟨iterator, hasks, -⟩ := hdrains
  simp only [Moment.drains, hasks]

section

variable {settings : Settings}
  {respond : {Answer : Type} → Request Answer → World → Ending Answer × World}
  {inside : {Answer : Type} → Request Answer → World → List Moment}

theorem Capability.run_invoke?_of_none {receiver : Value} {name : String} {world : World}
    (hnone : world.heap.lookup name (world.heap.typeOf receiver) = none) (arguments : List Value)
    (keywords : Option Address) :
    (invoke? receiver name arguments keywords).run settings respond world =
      (.value none, world) := by
  refine (Program.leads_heap _ world).run.trans ?_
  rw [hnone]
  rfl

/-- What one step of an iterator makes of what `__next__` did. -/
def Operation.afterNext (iterator : Value) : Except Exception (Option Value) → Program Step
  | .ok (some item) => return .produced item
  | .ok none => do
    let heap ← Program.heap
    .raise (.notIterator (heap.typeName iterator))
  | .error signal => return .exhausted (some signal)

theorem Operation.advance_eq {iterator : Value}
    (hforeign : ∀ address, iterator ≠ .iterator address) :
    advance iterator =
      (Program.handling (.exactly .stopIteration)
        (Capability.invoke? iterator "__next__" [] none) >>= afterNext iterator) := by
  cases iterator with
  | iterator address => exact absurd rfl (hforeign address)
  | _ =>
    refine congrArg (Program.handling _ _ >>= ·) (funext fun outcome ↦ ?_)
    rcases outcome with _ | _ | _ <;> rfl

theorem Operation.run_advance {iterator : Value}
    (hforeign : ∀ address, iterator ≠ .iterator address) (world : World) :
    (advance iterator).run settings respond world =
      Ending.andThen
        (Ending.handled (.exactly .stopIteration)
          ((Capability.invoke? iterator "__next__" [] none).run settings respond world)
          fun outcome reached ↦ (.value outcome, reached))
        fun outcome ↦ (afterNext iterator outcome).run settings respond := by
  rw [advance_eq hforeign, Program.run_bind_apply]
  rfl

/-- A value without `__next__` is no iterator. -/
theorem Operation.run_advance_of_none {iterator : Value}
    (hforeign : ∀ address, iterator ≠ .iterator address) {world : World}
    (hnone : world.heap.lookup "__next__" (world.heap.typeOf iterator) = none) :
    (advance iterator).run settings respond world =
      (.raised (.notIterator (world.heap.typeName iterator)), world) := by
  rw [run_advance hforeign, Capability.run_invoke?_of_none hnone]
  rfl

/-! ### Programs and requests -/

/-- A program ends if its requests are answered that no iterator of a user class is drained for. -/
theorem Program.Obeys.ends {level : Nat}
    (hdepth : ∀ {Answer : Type} (request : Request Answer) (world : World),
      (respond request world).2.depth = world.depth)
    (hrespond : ∀ {Answer : Type} (request : Request Answer) (world : World),
      request.Permitted .foreign → world.depth = level →
        (∀ moment ∈ inside request world, ¬moment.DrainsUser) →
          (respond request world).1 ≠ .exhausted)
    {Result : Type} {program : Program Result} (hobeys : program.Obeys .foreign) {world : World}
    (hlevel : world.depth = level)
    (hdrains : ∀ moment ∈ program.history settings respond inside world, ¬moment.DrainsUser) :
    (program.run settings respond world).1 ≠ .exhausted := by
  induction program generalizing world with
  | done result => exact Ending.value_ne_exhausted result
  | raise exception => exact Ending.raised_ne_exhausted exception
  | fault message => exact Ending.fault_ne_exhausted message
  | perform effect next ih =>
    have hlater := (List.forall_mem_cons.mp hdrains).2
    refine Ending.andThen_ends (effect.answer_ends settings world) fun answer honward ↦ ?_
    rw [honward] at hlater
    have hmarks : ∀ mark, Policy.foreign.marks mark := fun _ ↦ trivial
    exact ih answer (hobeys.2 answer (Effect.answers_of_marks hmarks effect answer))
      ((effect.answer_depth settings world).trans hlevel) hlater
  | ask request next ih =>
    obtain ⟨hinside, hlater⟩ := List.forall_mem_append.mp hdrains
    refine Ending.andThen_ends (hrespond request world hobeys.1 hlevel hinside)
      fun answer honward ↦ ?_
    rw [honward] at hlater
    exact ih answer (hobeys.2 answer) ((hdepth request world).trans hlevel) hlater
  | attempt handler body next ihbody ihnext =>
    obtain ⟨hbody, hlater⟩ := List.forall_mem_append.mp hdrains
    refine Ending.handled_ends (ihbody hobeys.2.1 hlevel hbody) fun result honward ↦ ?_
    rw [honward] at hlater
    exact ihnext result (hobeys.2.2 result)
      ((Program.run_depth settings hdepth body world).trans hlevel) hlater

theorem World.deeper_ends {Result : Type} {part : World → Ending Result × World}
    {history : World → List Moment} {world : World}
    (hpart : world.depth < settings.limits.maxDepth →
      (∀ moment ∈ history { world with depth := world.depth + 1 }, ¬moment.DrainsUser) →
        (part { world with depth := world.depth + 1 }).1 ≠ .exhausted)
    (hdrains : ∀ moment ∈ world.deeperHistory settings part history, ¬moment.DrainsUser) :
    (world.deeper settings part).1 ≠ .exhausted := by
  unfold deeper
  by_cases hlimit : settings.limits.maxDepth ≤ world.depth
  · rw [if_pos hlimit]
    exact Ending.raised_ne_exhausted _
  · rw [deeperHistory, if_neg hlimit] at hdrains
    rw [if_neg hlimit]
    have hwithin := (List.forall_mem_append.mp hdrains).1
    exact hpart (Nat.lt_of_not_le hlimit) (List.forall_mem_cons.mp hwithin).2

theorem Call.ends {level : Nat}
    (hdepth : ∀ {Answer : Type} (request : Request Answer) (world : World),
      (respond request world).2.depth = world.depth)
    (hrespond : ∀ {Answer : Type} (request : Request Answer) (world : World),
      request.Permitted .foreign → world.depth = level →
        (∀ moment ∈ inside request world, ¬moment.DrainsUser) →
          (respond request world).1 ≠ .exhausted)
    {callable : Value} {arguments : Arguments} {world : World} (hlevel : world.depth = level)
    (hdrains : ∀ moment ∈ Call.history settings respond inside callable arguments world,
      ¬moment.DrainsUser) :
    (Call.run settings respond callable arguments world).1 ≠ .exhausted := by
  have hobeys := Call.obeys_dispatch (Policy.foreign_coversCall callable arguments)
  cases callable with
  | builtin builtin =>
    cases builtin with
    | function builtin =>
      have hwithin := (List.forall_mem_append.mp hdrains).1
      let began := TraceEvent.builtinCall builtin.name arguments.count world.depth
      have hbegan : (world.observe began).depth = level := hlevel
      exact hobeys.ends hdepth hrespond hbegan (List.forall_mem_cons.mp hwithin).2
    | type | exception => exact hobeys.ends hdepth hrespond hlevel hdrains
  | _ => exact hobeys.ends hdepth hrespond hlevel hdrains

/-- With more patience than there are levels left a request is answered, unless an iterator of a
user class is drained. -/
theorem Request.answer_ends (patience : Nat) {Answer : Type} {request : Request Answer}
    (hpermitted : request.Permitted .foreign) {world : World}
    (hlimit : world.depth ≤ settings.limits.maxDepth)
    (hpatience : settings.limits.maxDepth < patience + world.depth)
    (hdrains : ∀ moment ∈ request.opening (Request.history settings patience) world,
      ¬moment.DrainsUser) : (request.answer settings patience world).1 ≠ .exhausted := by
  induction patience generalizing Answer request world with
  | zero => omega
  | succ patience ih =>
    obtain ⟨hopens, hinside⟩ := List.forall_mem_cons.mp hdrains
    have hdepth := fun {Answer : Type} (request : Request Answer) ↦
      request.answer_depth settings patience
    -- One level deeper the patience that is left is still enough.
    have hrespond (hbelow : world.depth < settings.limits.maxDepth) :
        ∀ {Answer : Type} (request : Request Answer) (inner : World),
          request.Permitted .foreign → inner.depth = world.depth + 1 →
            (∀ moment ∈ request.opening (Request.history settings patience) inner,
              ¬moment.DrainsUser) →
              (request.answer settings patience inner).1 ≠ .exhausted :=
      fun request inner hpermitted hlevel ↦ ih hpermitted (by omega) (by omega)
    cases request with
    | call callable arguments =>
      exact World.deeper_ends (fun hbelow ↦ Call.ends hdepth (hrespond hbelow) rfl) hinside
    | runCode frame code =>
      have hobeys : (Script.runCode frame code).Obeys .foreign :=
        Script.obeys_runCode Policy.foreign_coversScripts ⟨trivial, trivial⟩ code
      exact World.deeper_ends (fun hbelow ↦ hobeys.ends hdepth (hrespond hbelow) rfl) hinside
    | drain iterator =>
      have hnone : world.heap.lookup "__next__" (world.heap.typeOf iterator) = none := by
        by_contra hfound
        exact hopens ⟨iterator, rfl, hfound⟩
      rw [Request.answer, Operation.run_advance_of_none hpermitted hnone]
      exact Ending.raised_ne_exhausted _

end

/-! ### Steps of sessions -/

/-- With more patience than the limit of the call depth a step ends, unless an iterator of a user
class is drained. -/
theorem Session.Rests.step_ends {configuration : Configuration} {session : Session}
    (hrests : Rests configuration session) {patience : Nat}
    (hpatience : session.settings.limits.maxDepth < patience) {statement : Script.Statement}
    (hdrains : ∀ moment ∈ session.history patience statement, ¬moment.DrainsUser) :
    (session.stepWithin patience statement).1 ≠ .exhausted := by
  have hobeys : (Script.runStep session.frame statement).Obeys .foreign :=
    Script.obeys_runStep Policy.foreign_coversScripts ⟨trivial, trivial⟩ fun _ _ ↦ trivial
  have hdepth := hrests.depth_eq
  refine hobeys.ends (fun request ↦ request.answer_depth session.settings patience)
    (fun request world hpermitted hlevel ↦ Request.answer_ends patience hpermitted ?_ ?_)
    rfl hdrains
  · omega
  · omega

end Metaobject
