import Metaobject.Proofs.Heap.Nesting
import Metaobject.Proofs.Run.Divergence
import Metaobject.Proofs.Session.Hierarchy

/-!
# The steps of sessions end

The limit of the call depth makes every step end, however callables refer to each other, unless an
iterator of a user class is drained (`Rests.step_terminates`). What does not go through calls, the
descent into values, ends with the objects of the heap as long as no value contains itself. Only the
draining of an iterator of a user class can go on for ever, and it can: a class may have a
`__next__` that always gives an item (`Endless.exhausted`).
-/

set_option autoImplicit false
set_option relaxedAutoImplicit false

namespace Metaobject.Session

/-- Termination of steps, after any steps before, for every limit of the call depth. If no iterator
of a user class is drained, a step is carried to its end by more patience than the limit, with a
value, an exception or an internal error, and more patience changes nothing. As long as no value
contains itself, the written form and the equality of every value take no more steps down than the
heap has objects. And a step that ends with no patience whatever comes to the draining of an
iterator of a user class that gives item after item for ever. -/
theorem Rests.step_terminates {configuration : Configuration} {session : Session}
    (hrests : Rests configuration session) (statement : Script.Statement) :
    (∀ patience, session.settings.limits.maxDepth < patience →
      (∀ moment ∈ session.history patience statement, ¬moment.DrainsUser) →
        (session.stepWithin patience statement).1 ≠ .exhausted ∧
          ∀ more, patience ≤ more →
            session.stepWithin more statement = session.stepWithin patience statement) ∧
    (∀ patience, ∀ moment ∈ session.history patience statement, moment.before.heap.Acyclic →
      ∀ value, moment.before.heap.Holds value → ∀ steps, moment.before.heap.size ≤ steps →
        moment.before.heap.writtenWithin steps value = moment.before.heap.written value ∧
          ∀ other, moment.before.heap.equalWithin steps value other =
            moment.before.heap.equal value other) ∧
    ((∀ patience, (session.stepWithin patience statement).1 = .exhausted) →
      ∃ moment enough, moment.DrainsForever session.settings ∧
        ∀ patience, enough ≤ patience → moment ∈ session.history patience statement) := by
  refine ⟨fun patience hpatience hdrains ↦ ?_, fun patience moment hmoment hacyclic value hheld
    steps hsteps ↦ ?_, drainsForever_of_exhausted⟩
  · have hends := hrests.step_ends hpatience hdrains
    exact ⟨hends, fun more hmore ↦ session.stepWithin_eq_of_le hmore statement hends⟩
  · have hpasses : Passes configuration moment := ⟨session, patience, statement, hrests, hmoment⟩
    have hformed := (Reaches.before hpasses).wellFormed
    exact ⟨hformed.writtenWithin_eq hacyclic hheld hsteps,
      hformed.equalWithin_eq hacyclic hheld hsteps⟩

/-! ### An iterator without an end -/

section

variable {settings : Settings} {world : World} {receiver : Value} {name : String}

/-- A capability that is the type `type` gives the class of the receiver and changes nothing. -/
theorem run_invoke?_type
    (hfound : world.heap.lookup name (world.heap.typeOf receiver) = some (.builtin (.type .type)))
    (hbelow : world.depth < settings.limits.maxDepth) (patience : Nat) :
    (Capability.invoke? receiver name [] none).run settings
        (Request.answer settings (patience + 1)) world =
      (.value (some (world.heap.typeOf receiver).toValue), world) := by
  refine (Program.leads_heap _ world).run.trans ?_
  rw [hfound]
  show Ending.andThen (world.deeper settings _) _ = _
  rw [World.deeper, if_neg (Nat.not_le_of_lt hbelow)]
  rfl

theorem run_invoke?_zero
    (hfound : world.heap.lookup name (world.heap.typeOf receiver) = some (.builtin (.type .type))) :
    (Capability.invoke? receiver name [] none).run settings (Request.answer settings 0) world =
      (.exhausted, world) := by
  refine (Program.leads_heap _ world).run.trans ?_
  rw [hfound]
  rfl

/-- An iterator whose `__next__` is the type `type` gives its class over and over. -/
theorem answer_drain_type (hforeign : ∀ address, receiver ≠ .iterator address)
    (hfound : world.heap.lookup "__next__" (world.heap.typeOf receiver) =
      some (.builtin (.type .type)))
    (hbelow : world.depth < settings.limits.maxDepth) (patience : Nat) :
    (Request.drain receiver).answer settings patience world = (.exhausted, world) := by
  induction patience with
  | zero => rfl
  | succ patience ih =>
    rw [Request.answer, Operation.run_advance hforeign]
    cases patience with
    | zero =>
      rw [run_invoke?_zero hfound]
      rfl
    | succ patience =>
      rw [run_invoke?_type hfound hbelow]
      show Ending.andThen ((Request.drain receiver).answer settings (patience + 1) world) _ = _
      rw [ih]
      rfl

end

namespace Endless

open Script

/-- A metaclass `M` with `type` as its `__next__`, a class `C` of it with `type` as its `__iter__`,
and an instance of that class: its iterator is `C`, and the items are `M` over and over. -/
def statements : List Statement :=
  [.assign .locals "M" (creation type "M" [type] [("__next__", type)]),
   .assign .locals "C" (creation (.variable "M") "C" [] [("__iter__", type)]),
   .assign .locals "c" (.call (.variable "C") [] .absent)]

/-- The session after the statements. -/
def session : Session := (start .scripted).after 3 statements

/-- The items of the instance. -/
def statement : Statement := .evaluate (.probe (.runtime .collect) [.variable "c"])

/-- The step is carried to its end by no patience. -/
theorem exhausted (patience : Nat) : (session.stepWithin patience statement).1 = .exhausted := by
  cases patience with
  | zero => with_unfolding_all rfl
  | succ patience =>
    have harguments : (evaluateAll session.frame [.variable "c"]).run session.settings
        (Request.answer session.settings (patience + 1)) session.world =
          (.value [.object 8], session.world) := by with_unfolding_all rfl
    have hiterate : (Operation.iterate (.object 8)).run session.settings
        (Request.answer session.settings (patience + 1)) session.world =
          (.value (.userClass 6), session.world) := by with_unfolding_all rfl
    have hbelow : session.world.depth < session.settings.limits.maxDepth := by
      with_unfolding_all decide
    have hnext : session.world.heap.lookup "__next__" (session.world.heap.typeOf (.userClass 6)) =
        some (.builtin (.type .type)) := by with_unfolding_all rfl
    have hdrain := answer_drain_type (by nofun) hnext hbelow (patience + 1)
    have hcollect : ((Operation.collect (.object 8)).run session.settings
        (Request.answer session.settings (patience + 1)) session.world).1 = .exhausted := by
      show ((Operation.iterate (.object 8) >>= _).run _ _ _).1 = _
      rw [Program.run_bind_apply, hiterate]
      show (Ending.andThen (Request.answer session.settings (patience + 1) _ _) _).1 = _
      exact Ending.andThen_exhausted (congrArg Prod.fst hdrain)
    show ((runStep session.frame statement).run session.settings _ session.world).1 = _
    rw [runStep, statement, runStatement, evaluate]
    refine Program.run_bind_exhausted (Program.run_bind_exhausted ?_)
    rw [Program.run_bind_apply, harguments]
    exact Program.run_bind_exhausted hcollect

end Endless

/-! ### A function that calls itself -/

namespace SelfCall

open Script

/-- A call of the function `f`. -/
def call : Expression := .call (.variable "f") [] .absent

/-- A function `f` that calls itself. -/
def statements : List Statement :=
  [.assign .locals "f" (.function "f" (.mk "f.py" [] false (.script [.result call])) [] [] none)]

/-- Three calls may be open. -/
def configuration : Configuration := { Configuration.scripted with limits := ⟨3, 64⟩ }

/-- The session after the function is bound. -/
def session : Session := (start configuration).after 1 statements

end SelfCall

/-- A function that calls itself ends with a `RecursionError`, with any patience above the limit;
the dict that it is bound in is written with as many steps as there are objects; and the step that
drains the iterator without an end ends with no patience, and drains it for ever. -/
theorem step_terminates_selfCall :
    (∀ more, 4 ≤ more →
      (SelfCall.session.stepWithin more (.evaluate SelfCall.call)).1 = .raised .recursionLimit) ∧
    (∀ steps, 3 ≤ steps → SelfCall.session.world.heap.writtenWithin steps (.dict 0) =
      SelfCall.session.world.heap.written (.dict 0)) ∧
    (∀ patience, (Endless.session.stepWithin patience Endless.statement).1 = .exhausted) ∧
    ∃ moment enough, moment.DrainsForever Endless.session.settings ∧
      ∀ patience, enough ≤ patience →
        moment ∈ Endless.session.history patience Endless.statement := by
  have hrests : Rests SelfCall.configuration SelfCall.session :=
    Rests.start.after 1 SelfCall.statements
  obtain ⟨hends, hnests, -⟩ := hrests.step_terminates (.evaluate SelfCall.call)
  refine ⟨fun more hmore ↦ ?_, fun steps hsteps ↦ ?_, ?_⟩
  · have hdrains : ∀ moment ∈ SelfCall.session.history 4 (.evaluate SelfCall.call),
        moment.drains = false := by with_unfolding_all decide
    have hraised : (SelfCall.session.stepWithin 4 (.evaluate SelfCall.call)).1 =
        .raised .recursionLimit := by with_unfolding_all rfl
    obtain ⟨-, hsettled⟩ := hends 4 (by with_unfolding_all decide) fun moment hmoment huser ↦ by
      simpa [hdrains moment hmoment] using huser.drains
    rw [hsettled more hmore, hraised]
  · have hfirst : (SelfCall.session.history 4 (.evaluate SelfCall.call)).head?.map Moment.before =
        some SelfCall.session.world := by with_unfolding_all rfl
    obtain ⟨moment, hhead, hbefore⟩ := Option.map_eq_some_iff.mp hfirst
    have hacyclic : SelfCall.session.world.heap.Acyclic :=
      Heap.acyclic_of_atoms (by with_unfolding_all decide)
    have hheld : SelfCall.session.world.heap.Holds (.dict 0) :=
      Heap.holds_dict.mpr (by with_unfolding_all decide)
    have hmoment := hnests 4 moment (List.mem_of_head? hhead)
    rw [hbefore] at hmoment
    exact (hmoment hacyclic (.dict 0) hheld steps hsteps).1
  · obtain ⟨-, -, hforever⟩ := (Rests.start.after 3 Endless.statements).step_terminates
      Endless.statement
    exact ⟨Endless.exhausted, hforever Endless.exhausted⟩

end Metaobject.Session
