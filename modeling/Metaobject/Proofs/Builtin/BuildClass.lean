import Metaobject.Builtin.BuildClass
import Metaobject.Proofs.Heap.WellFormed
import Metaobject.Proofs.Run.Requests

/-!
# The protocol of class construction

What a construction settles before it runs anything else is a plan (`Plan`). What it then runs are
up to three requests (`Stage`): `__prepare__`, the body and the call of the metaclass. A
construction follows its plan (`Plan.Follows`): the stages happen in this order, each at most once
and exactly if the one before it has succeeded, the namespace is handed on from one to the next, and
nothing changes between and after them, except for new dicts and an empty cell that is filled with
the class. The requests and the ending are told for each point at which a construction can end. This
holds whatever requests answer and whatever they do to the world meanwhile
(`BuildClass.follows_or_unsettled`).

The construction is taken apart at its stages: the preparing of the namespace
(`Plan.prepares_cases`), the finding of a scope for the body (`findsScope_cases`), and what follows
a body with a result (`Plan.follows_of_result`).
-/

set_option autoImplicit false
set_option relaxedAutoImplicit false

namespace Metaobject

namespace BuildClass

section

variable (settings : Settings)
  (respond : {Answer : Type} → Request Answer → World → Ending Answer × World)

/-! ### Plans -/

/-- What a construction settles before it runs anything else: what it is given, the metaclass asked
for, the remaining keywords and the metaclass to call, with the world in which this is settled. -/
structure Plan where
  definition : Definition
  explicit : Option Value
  keywords : Option Address
  metaclass : Value
  world : World

/-- The metaclass that a call asks for. -/
def askedMetaclass (heap : Heap) (arguments : Arguments) : Option Value :=
  arguments.keywords.bind fun address ↦ (heap.entries address).find? "metaclass"

/-- Whether a construction in a world settles a plan. It makes no request for it, and at most a dict
for the remaining keywords. -/
structure Plan.Settled (arguments : Arguments) (world : World) (plan : Plan) : Prop where
  definition : BuildClass.definition world.heap arguments.positional = .ok plan.definition
  explicit : plan.explicit = askedMetaclass world.heap arguments
  keywords : (splitMetaclass arguments.keywords).Gives settings respond world []
    (plan.explicit, plan.keywords) plan.world
  unchanged : world.heap.Extends plan.world.heap
  metaclass : resolve plan.world.heap plan.explicit plan.definition.bases = .ok plan.metaclass

namespace Plan

/-- The name and the bases, as they are passed on. -/
def header (plan : Plan) : List Value := [.text plan.definition.name, .tuple plan.definition.bases]

/-- The name by which reports and messages call the metaclass. -/
def metaclassName (plan : Plan) : String := BuildClass.metaclassName plan.world.heap plan.metaclass

/-- The world once the metaclass is reported. -/
def reported (plan : Plan) : World :=
  plan.world.observe (.metaclassResolved plan.definition.name plan.metaclassName)

/-- The call of `__prepare__`, if the metaclass has it. -/
def preparation? (plan : Plan) : Option (Request Value) :=
  let heap := plan.world.heap
  match plan.metaclass.class? with
  | some cls => (heap.lookup "__prepare__" cls).map fun method ↦
    .call method (.of heap plan.header plan.keywords)
  | none => (heap.lookup "__prepare__" (heap.typeOf plan.metaclass)).map fun method ↦
    .call method (.of heap (plan.metaclass :: plan.header) plan.keywords)

end Plan

/-! ### Stages -/

/-- A request of a construction, with the world in which it is made. -/
structure Stage (Answer : Type) where
  request : Request Answer
  before : World

/-- How a stage is answered, and the world after it. -/
def Stage.outcome {Answer : Type} (stage : Stage Answer) : Ending Answer × World :=
  respond stage.request stage.before

/-- A stage as a moment of the run. -/
def Stage.moment {Answer : Type} (stage : Stage Answer) : Moment :=
  stage.request.moment respond stage.before

/-- The stage of `__prepare__`, if the metaclass has it. -/
def Plan.prepareStage? (plan : Plan) : Option (Stage Value) :=
  plan.preparation?.map fun request ↦ ⟨request, plan.reported⟩

/-- What is requested for a namespace. -/
def Plan.prepareMoments (plan : Plan) : List Moment :=
  (plan.prepareStage?.map fun prepare ↦ prepare.moment respond).toList

/-- How the preparing of a namespace ends. -/
inductive Plan.Prepares (plan : Plan) : Ending Address × World → Prop
  /-- Without `__prepare__` the namespace is a new, empty dict. -/
  | fresh (namespaceDict : Address) (world : World) (hmissing : plan.prepareStage? = none)
      (hfresh : plan.reported.allocate (.dict .empty) = (namespaceDict, world)) :
      Prepares plan (.value namespaceDict, world)
  /-- The namespace is the dict that `__prepare__` gives. -/
  | given (prepare : Stage Value) (namespaceDict : Address) (world : World)
      (hprepare : plan.prepareStage? = some prepare)
      (hgiven : prepare.outcome respond = (.value (.dict namespaceDict), world)) :
      Prepares plan (.value namespaceDict, world)
  /-- What `__prepare__` gives is not a dict. -/
  | refused (prepare : Stage Value) (value : Value) (world : World)
      (hprepare : plan.prepareStage? = some prepare)
      (hgiven : prepare.outcome respond = (.value value, world))
      (hother : ∀ namespaceDict, value ≠ .dict namespaceDict) :
      Prepares plan
        (.raised (.notNamespace plan.metaclassName (world.heap.typeName value)), world)
  /-- The call of `__prepare__` is cut. -/
  | cut (prepare : Stage Value) (cut : Cut) (world : World)
      (hprepare : plan.prepareStage? = some prepare)
      (hcut : prepare.outcome respond = (cut.ending, world)) :
      Prepares plan (cut.ending, world)

/-- How the scope for running a function with a namespace is found. -/
inductive FindsScope (function : FunctionRecord) (namespaceDict : Address) (world : World) :
    Ending Address × World → Prop
  /-- A class body runs in the namespace itself. -/
  | classBody (code : CodeRecord) (hcode : world.heap.code? function.code = some code)
      (hbody : code.isClassBody = true) :
      FindsScope function namespaceDict world (.value namespaceDict, world)
  /-- Any other function runs in a new dict of its parameters. -/
  | bound (code : CodeRecord) (entries : Entries Value) (locals : Address) (final : World)
      (hcode : world.heap.code? function.code = some code) (hbody : code.isClassBody = false)
      (hbound : Arguments.bindParameters function.name code.parameters function.defaults
        [.dict namespaceDict] [] = .ok entries)
      (hfresh : world.allocate (.dict entries) = (locals, final)) :
      FindsScope function namespaceDict world (.value locals, final)
  /-- The function does not take the namespace as its only argument. -/
  | refused (code : CodeRecord) (exception : Exception)
      (hcode : world.heap.code? function.code = some code) (hbody : code.isClassBody = false)
      (hrefused : Arguments.bindParameters function.name code.parameters function.defaults
        [.dict namespaceDict] [] = .error exception) :
      FindsScope function namespaceDict world (.raised exception, world)
  /-- The function has no code. -/
  | missing (hcode : world.heap.code? function.code = none) :
      FindsScope function namespaceDict world
        (.fault "class body must be called with exactly its namespace", world)

/-- The running of the body of a class with given locals. -/
def Definition.bodyRequest (definition : Definition) (locals : Address) :
    Request (Option Value) :=
  let body := definition.body
  .runCode ⟨body.globals, locals, body.closure⟩ body.code

/-- Whether the body of a plan is run, with the namespace that is prepared. -/
def Plan.RunsBody (plan : Plan) (namespaceDict : Address) (body : Stage (Option Value)) : Prop :=
  ∃ (world : World) (locals : Address), plan.Prepares respond (.value namespaceDict, world) ∧
    FindsScope plan.definition.body namespaceDict world (.value locals, body.before) ∧
      body.request = plan.definition.bodyRequest locals

/-- The call of the metaclass with a namespace. -/
def Plan.callRequest (plan : Plan) (namespaceDict : Address) (heap : Heap) : Request Value :=
  .call plan.metaclass (.of heap (plan.header ++ [.dict namespaceDict]) plan.keywords)

/-- Whether the metaclass of a plan is called, with the namespace that is prepared and after a body
with a result. -/
structure Plan.CallsMetaclass (plan : Plan) (namespaceDict : Address) (bodyResult : Value)
    (body : Stage (Option Value)) (call : Stage Value) : Prop where
  runs : plan.RunsBody respond namespaceDict body
  result : body.outcome respond = (.value (some bodyResult), call.before)
  request : call.request = plan.callRequest namespaceDict call.before.heap

/-- Whether the cell that a body has given, if it has given one, was empty before and holds the
class after, with no other change. -/
structure Filled (bodyResult cls : Value) (before after : Heap) : Prop where
  cell : ∀ address, bodyResult = .cell address →
    before.cell? address = some none ∧ after.cell? address = some (some cls)
  others : ∀ address, bodyResult ≠ .cell address → after.get? address = before.get? address

/-! ### Following a plan -/

/-- The report of the class that is built. -/
def Plan.completion (plan : Plan) : TraceEvent :=
  .classBuilt plan.definition.name plan.metaclassName

/-- Whether a construction that makes the given requests and has the given outcome follows a plan.
There is one case for each point at which a construction can end. -/
inductive Plan.Follows (plan : Plan) : List Moment → Ending Value × World → Prop
  /-- No namespace is prepared. -/
  | unprepared (cut : Cut) (final : World) (hprepare : plan.Prepares respond (cut.ending, final)) :
      Follows plan (plan.prepareMoments respond) (cut.ending, final)
  /-- The body does not take the namespace. -/
  | unbound (namespaceDict : Address) (world : World) (cut : Cut) (final : World)
      (hprepare : plan.Prepares respond (.value namespaceDict, world))
      (hscope : FindsScope plan.definition.body namespaceDict world (cut.ending, final)) :
      Follows plan (plan.prepareMoments respond) (cut.ending, final)
  /-- The body is cut. -/
  | bodyCut (namespaceDict : Address) (body : Stage (Option Value)) (cut : Cut) (final : World)
      (hbody : plan.RunsBody respond namespaceDict body)
      (hcut : body.outcome respond = (cut.ending, final)) :
      Follows plan (plan.prepareMoments respond ++ [body.moment respond]) (cut.ending, final)
  /-- The body has no result, and the metaclass is not called. -/
  | unbuilt (namespaceDict : Address) (body : Stage (Option Value)) (final : World)
      (hbody : plan.RunsBody respond namespaceDict body)
      (hnone : body.outcome respond = (.value none, final)) :
      Follows plan (plan.prepareMoments respond ++ [body.moment respond]) (.value .null, final)
  /-- The call of the metaclass is cut. -/
  | callCut (namespaceDict : Address) (bodyResult : Value) (body : Stage (Option Value))
      (call : Stage Value) (cut : Cut) (final : World)
      (hcall : plan.CallsMetaclass respond namespaceDict bodyResult body call)
      (hcut : call.outcome respond = (cut.ending, final)) :
      Follows plan (plan.prepareMoments respond ++ [body.moment respond, call.moment respond])
        (cut.ending, final)
  /-- The cell that the body has given is not empty when the metaclass has given a class. -/
  | occupied (namespaceDict cell : Address) (cls : Value) (body : Stage (Option Value))
      (call : Stage Value) (final : World)
      (hcall : plan.CallsMetaclass respond namespaceDict (.cell cell) body call)
      (hcls : call.outcome respond = (.value cls, final))
      (hcell : final.heap.cell? cell ≠ some none) :
      Follows plan (plan.prepareMoments respond ++ [body.moment respond, call.moment respond])
        (.fault "cell is already filled", final)
  /-- The answer is what the metaclass has given. -/
  | built (namespaceDict : Address) (bodyResult cls : Value) (body : Stage (Option Value))
      (call : Stage Value) (after : World) (heap : Heap)
      (hcall : plan.CallsMetaclass respond namespaceDict bodyResult body call)
      (hcls : call.outcome respond = (.value cls, after))
      (hfilled : Filled bodyResult cls after.heap heap) :
      Follows plan (plan.prepareMoments respond ++ [body.moment respond, call.moment respond])
        (.value cls, World.observe { after with heap } plan.completion)

/-- Whether a construction settles no plan, with the exception that it raises and the world after
it: it is not given a definition, or it resolves no metaclass. -/
inductive Unsettled (arguments : Arguments) (world : World) : Exception → World → Prop
  | undefined (exception : Exception)
      (hdefinition : definition world.heap arguments.positional = .error exception) :
      Unsettled arguments world exception world
  | unresolved (given : Definition) (keywords : Option Address) (exception : Exception)
      (final : World) (hdefinition : definition world.heap arguments.positional = .ok given)
      (hkeywords : (splitMetaclass arguments.keywords).Gives settings respond world []
        (askedMetaclass world.heap arguments, keywords) final)
      (hunchanged : world.heap.Extends final.heap)
      (hmetaclass : resolve final.heap (askedMetaclass world.heap arguments) given.bases =
        .error exception) :
      Unsettled arguments world exception final

end

section

variable {settings : Settings}
  {respond : {Answer : Type} → Request Answer → World → Ending Answer × World} {world : World}

/-! ### Settling a plan -/

namespace Plan

/-- What follows a body with a result. -/
def conclude (plan : Plan) (namespaceDict : Address) (bodyResult : Value) : Program Value := do
  let heap ← Program.heap
  let cls ← Program.request (plan.callRequest namespaceDict heap)
  fillClassCell bodyResult cls
  Program.effect (.reportClass plan.definition.name plan.metaclassName)
  return cls

/-- What follows the settling of a plan. -/
def construct (plan : Plan) : Program Value := do
  Program.effect (.reportMetaclass plan.definition.name plan.metaclassName)
  let namespaceDict ← prepareNamespace plan.metaclass plan.metaclassName plan.header plan.keywords
  match ← runBody plan.definition.body namespaceDict with
  | none => return .null
  | some bodyResult => plan.conclude namespaceDict bodyResult

end Plan

theorem splitMetaclass_gives (arguments : Arguments) (world : World) :
    ∃ keywords final, (splitMetaclass arguments.keywords).Gives settings respond world []
        (askedMetaclass world.heap arguments, keywords) final ∧
      world.heap.Extends final.heap := by
  have hself := Heap.Extends.refl world.heap
  unfold askedMetaclass
  cases arguments.keywords with
  | none => exact ⟨none, world, Program.gives_done _ world, hself⟩
  | some address =>
    rw [Option.bind_some]
    obtain ⟨rest, hrest⟩ : ∃ rest, (world.heap.entries address).erase "metaclass" = rest :=
      ⟨_, rfl⟩
    cases hmetaclass : (world.heap.entries address).find? "metaclass" with
    | none =>
      refine ⟨some address, world, (Program.leads_heap _ world).gives ?_, hself⟩
      simp only [hmetaclass]
      exact Program.gives_done _ world
    | some metaclass =>
      by_cases hempty : rest.isEmpty
      · refine ⟨none, world, (Program.leads_heap _ world).gives ?_, hself⟩
        simp only [hmetaclass, hrest, if_pos hempty]
        exact Program.gives_done _ world
      · refine ⟨some world.heap.size, (world.allocate (.dict rest)).2,
          (Program.leads_heap _ world).gives ?_, world.heap.extends_allocate (.dict rest)⟩
        simp only [hmetaclass, hrest, if_neg hempty]
        exact Program.Gives.bind (Program.gives_effect rfl) (Program.gives_done _ _)

/-- A construction that settles a plan goes on with it. -/
theorem run_leads {plan : Plan} {arguments : Arguments}
    (hsettled : plan.Settled settings respond arguments world) :
    (run arguments).Leads settings respond world plan.construct plan.world := by
  refine (Program.leads_heap _ world).trans ?_
  refine ((Program.gives_ofExcept hsettled.definition world).leads _).trans ?_
  refine (hsettled.keywords.leads _).trans ?_
  refine (Program.leads_heap _ plan.world).trans ?_
  exact (Program.gives_ofExcept hsettled.metaclass plan.world).leads _

/-- A construction either settles a plan, or raises an exception and makes no request. -/
theorem settled_or_unsettled (arguments : Arguments) (world : World) :
    (∃ plan : Plan, plan.Settled settings respond arguments world) ∨
      ∃ exception final, Unsettled settings respond arguments world exception final ∧
        (run arguments).Stops settings respond world [] (.raised exception) final := by
  cases hdefinition : definition world.heap arguments.positional with
  | error exception =>
    refine Or.inr ⟨exception, world, .undefined exception hdefinition,
      (Program.leads_heap _ world).stops ?_⟩
    exact (Program.stops_ofExcept hdefinition world).bind _
  | ok definition =>
    obtain ⟨keywords, split, hsplit, hextends⟩ :=
      @splitMetaclass_gives settings respond arguments world
    cases hmetaclass : resolve split.heap (askedMetaclass world.heap arguments)
      definition.bases with
    | error exception =>
      refine Or.inr ⟨exception, split, .unresolved definition keywords exception split hdefinition
        hsplit hextends hmetaclass, (Program.leads_heap _ world).stops ?_⟩
      refine ((Program.gives_ofExcept hdefinition world).leads _).stops ?_
      refine (hsplit.leads _).stops ((Program.leads_heap _ split).stops ?_)
      exact (Program.stops_ofExcept hmetaclass split).bind _
    | ok metaclass =>
      exact Or.inl ⟨⟨definition, _, keywords, metaclass, split⟩, hdefinition, rfl, hsplit,
        hextends, hmetaclass⟩

/-! ### The stages one by one -/

/-- A program that calls `__prepare__` is cut with the call, or gives what the call gives. -/
theorem request_some_cases (request : Request Value) (world : World) :
    let program : Program (Option Value) := do return some (← Program.request request)
    (∃ cut final, respond request world = (Cut.ending cut, final) ∧
      program.Stops settings respond world [request.moment respond world] cut final) ∨
      ∃ value final, respond request world = (.value value, final) ∧
        program.Gives settings respond world [request.moment respond world] (some value) final := by
  rcases Ending.value_or_cut (respond request world) with ⟨value, hvalue⟩ | ⟨cut, hcut⟩
  · exact Or.inr ⟨value, _, hvalue,
      (Program.gives_request hvalue).bind (Program.gives_done (some value) _)⟩
  · exact Or.inl ⟨cut, _, hcut, (Program.stops_request hcut).bind _⟩

/-- The program that looks for `__prepare__` and calls it. -/
def Plan.prepare (plan : Plan) : Program (Option Value) :=
  match plan.preparation? with
  | some request => do return some (← Program.request request)
  | none => return none

theorem Plan.heap_reported (plan : Plan) : plan.reported.heap = plan.world.heap := rfl

theorem Plan.prepared?_leads (plan : Plan) :
    (prepared? plan.metaclass plan.header plan.keywords).Leads settings respond plan.reported
      plan.prepare plan.reported := by
  cases hclass : plan.metaclass.class? with
  | none =>
    simp only [prepared?, prepare, preparation?, hclass]
    refine (Program.leads_heap _ plan.reported).trans ?_
    rw [heap_reported]
    cases plan.world.heap.lookup "__prepare__" (plan.world.heap.typeOf plan.metaclass) <;>
      exact ⟨rfl, rfl⟩
  | some cls =>
    simp only [prepared?, prepare, preparation?, hclass]
    refine (Program.leads_heap _ plan.reported).trans ?_
    rw [heap_reported]
    cases plan.world.heap.lookup "__prepare__" cls <;> exact ⟨rfl, rfl⟩

/-- Without `__prepare__` the namespace is a new dict. -/
theorem Plan.prepareNamespace_fresh {plan : Plan} (hrequest : plan.preparation? = none) :
    (prepareNamespace plan.metaclass plan.metaclassName plan.header plan.keywords).Gives settings
      respond plan.reported [] plan.reported.heap.size
        (plan.reported.allocate (.dict .empty)).2 := by
  have hnone : plan.prepare.Gives settings respond plan.reported [] none plan.reported := by
    rw [Plan.prepare, hrequest]
    exact Program.gives_done none plan.reported
  exact (plan.prepared?_leads.gives hnone).bind (Program.gives_effect rfl)

/-- With `__prepare__` the namespace is the dict that it gives, or none is prepared. -/
theorem Plan.prepares_of_request {plan : Plan} {request : Request Value}
    (hrequest : plan.preparation? = some request) :
    let program := prepareNamespace plan.metaclass plan.metaclassName plan.header plan.keywords
    let asked := [request.moment respond plan.reported]
    (∃ namespaceDict final, plan.Prepares respond (.value namespaceDict, final) ∧
      program.Gives settings respond plan.reported asked namespaceDict final) ∨
      ∃ cut final, plan.Prepares respond (Cut.ending cut, final) ∧
        program.Stops settings respond plan.reported asked cut final := by
  intro program asked
  have hstage : plan.prepareStage? = some ⟨request, plan.reported⟩ := by
    rw [Plan.prepareStage?, hrequest, Option.map_some]
  have hprepare : (prepared? plan.metaclass plan.header plan.keywords).Leads settings respond
      plan.reported (do return some (← Program.request request)) plan.reported := by
    have hleads := @Plan.prepared?_leads settings respond plan
    rwa [Plan.prepare, hrequest] at hleads
  rcases @request_some_cases settings respond request plan.reported with
    ⟨cut, final, hcut, hstops⟩ | ⟨value, final, hvalue, hgives⟩
  · exact Or.inr ⟨cut, final, .cut _ cut final hstage hcut, (hprepare.stops hstops).bind _⟩
  have hgiven := hprepare.gives hgives
  by_cases hdict : ∃ namespaceDict, value = .dict namespaceDict
  · obtain ⟨namespaceDict, rfl⟩ := hdict
    exact Or.inl ⟨namespaceDict, final, .given _ namespaceDict final hstage hvalue,
      hgiven.bind (Program.gives_done _ final)⟩
  · have hother : ∀ namespaceDict, value ≠ .dict namespaceDict :=
      fun namespaceDict hsame ↦ hdict ⟨namespaceDict, hsame⟩
    refine Or.inr ⟨.raised (.notNamespace plan.metaclassName (final.heap.typeName value)), final,
      .refused _ value final hstage hvalue hother, hgiven.bind_stops ?_⟩
    cases value with
    | dict namespaceDict => exact absurd rfl (hother namespaceDict)
    | _ => exact (Program.leads_heap _ final).stops (Program.stops_raise _ final)

/-- The namespace is prepared with the call of `__prepare__`, or without a request. -/
theorem Plan.prepares_cases (plan : Plan) :
    let program := prepareNamespace plan.metaclass plan.metaclassName plan.header plan.keywords
    let asked := plan.prepareMoments respond
    (∃ namespaceDict final, plan.Prepares respond (.value namespaceDict, final) ∧
      program.Gives settings respond plan.reported asked namespaceDict final) ∨
      ∃ cut final, plan.Prepares respond (Cut.ending cut, final) ∧
        program.Stops settings respond plan.reported asked cut final := by
  intro program asked
  cases hrequest : plan.preparation? with
  | none =>
    have hmissing : plan.prepareStage? = none := by
      rw [Plan.prepareStage?, hrequest, Option.map_none]
    have hasked : asked = [] := by
      simp only [asked, Plan.prepareMoments, hmissing, Option.map_none, Option.toList_none]
    rw [hasked]
    exact Or.inl ⟨_, _, .fresh _ _ hmissing rfl, Plan.prepareNamespace_fresh hrequest⟩
  | some request =>
    have hasked : asked = [request.moment respond plan.reported] := by
      simp only [asked, Plan.prepareMoments, Plan.prepareStage?, hrequest, Option.map_some,
        Option.toList_some, Stage.moment]
    rw [hasked]
    exact Plan.prepares_of_request hrequest

/-- The scope of a body is found, or not, without a request. -/
theorem findsScope_cases (function : FunctionRecord) (namespaceDict : Address) (world : World) :
    let program := Function.localsFor function (.ofList [.dict namespaceDict])
    (∃ locals final, FindsScope function namespaceDict world (.value locals, final) ∧
      program.Gives settings respond world [] locals final) ∨
      ∃ cut final, FindsScope function namespaceDict world (Cut.ending cut, final) ∧
        program.Stops settings respond world [] cut final := by
  intro program
  cases hcode : world.heap.code? function.code with
  | none =>
    refine Or.inr ⟨.fault "class body must be called with exactly its namespace", world,
      .missing hcode, (Program.leads_heap _ world).stops ?_⟩
    simp only [hcode]
    exact Program.stops_fault _ world
  | some code =>
    cases hbody : code.isClassBody with
    | true =>
      refine Or.inl ⟨namespaceDict, world, .classBody code hcode hbody,
        (Program.leads_heap _ world).gives ?_⟩
      simp only [hcode, if_pos hbody]
      exact Program.gives_done namespaceDict world
    | false =>
      have hother : ¬code.isClassBody := Bool.eq_false_iff.mp hbody
      cases hbound : Arguments.bindParameters function.name code.parameters function.defaults
        [.dict namespaceDict] [] with
      | error exception =>
        refine Or.inr ⟨.raised exception, world, .refused code exception hcode hbody hbound,
          (Program.leads_heap _ world).stops ?_⟩
        simp only [hcode, if_neg hother]
        exact (Program.stops_ofExcept hbound world).bind _
      | ok entries =>
        refine Or.inl ⟨_, _, .bound code entries _ _ hcode hbody hbound rfl,
          (Program.leads_heap _ world).gives ?_⟩
        simp only [hcode, if_neg hother]
        exact (Program.gives_ofExcept hbound world).bind (Program.gives_effect rfl)

/-- The cell that the body has given is filled, or it is not empty. -/
theorem fillClassCell_cases (bodyResult cls : Value) (world : World) :
    (∃ cell, bodyResult = .cell cell ∧ world.heap.cell? cell ≠ some none ∧
      (fillClassCell bodyResult cls).Stops settings respond world []
        (.fault "cell is already filled") world) ∨
      ∃ heap, Filled bodyResult cls world.heap heap ∧
        (fillClassCell bodyResult cls).Gives settings respond world [] ()
          { world with heap } := by
  by_cases hbody : ∃ cell, bodyResult = .cell cell
  · obtain ⟨cell, rfl⟩ := hbody
    by_cases hcell : world.heap.cell? cell = some none
    · refine Or.inr ⟨world.heap.setCell cell cls, ⟨?_, ?_⟩, ?_⟩
      · rintro _ ⟨⟩
        exact ⟨hcell, Heap.cell?_setCell hcell cls⟩
      · exact fun other hother ↦ Heap.get?_setCell (fun hsame ↦ hother (by rw [hsame])) cls
      · refine Program.gives_effect ?_
        simp only [Effect.answer, World.fillCell, hcell, World.change]
        rfl
    · refine Or.inl ⟨cell, rfl, hcell, Program.stops_effect ?_⟩
      simp only [Effect.answer, World.fillCell]
      rfl
  · have hnone : fillClassCell bodyResult cls = pure () := by
      unfold fillClassCell
      split
      · exact absurd ⟨_, rfl⟩ hbody
      · rfl
    refine Or.inr ⟨world.heap, ⟨fun cell hcell ↦ absurd ⟨cell, hcell⟩ hbody, fun _ _ ↦ rfl⟩, ?_⟩
    rw [hnone]
    exact Program.gives_done () world

/-! ### The construction as a whole -/

/-- What a construction does after a body with a result: the metaclass is called, and what it gives
is put into the cell of the body. -/
theorem Plan.follows_of_result {plan : Plan} {namespaceDict : Address}
    {body : Stage (Option Value)} {bodyResult : Value}
    (hbody : plan.RunsBody respond namespaceDict body)
    (hresult : body.outcome respond = (.value (some bodyResult), world)) :
    plan.Follows respond
      (plan.prepareMoments respond ++ ([body.moment respond] ++
        (plan.conclude namespaceDict bodyResult).asked settings respond world))
      ((plan.conclude namespaceDict bodyResult).run settings respond world) := by
  let call : Stage Value := ⟨plan.callRequest namespaceDict world.heap, world⟩
  let program := plan.conclude namespaceDict bodyResult
  have hcall : plan.CallsMetaclass respond namespaceDict bodyResult body call :=
    ⟨hbody, hresult, rfl⟩
  rcases Ending.value_or_cut (call.outcome respond) with ⟨cls, hcls⟩ | ⟨cut, hcut⟩
  · rcases fillClassCell_cases bodyResult cls (call.outcome respond).2 with
      ⟨cell, rfl, hcell, hstops⟩ | ⟨heap, hfilled, hgives⟩
    · have hprogram : program.Stops settings respond world [call.moment respond]
          (.fault "cell is already filled") (call.outcome respond).2 :=
        (Program.leads_heap _ world).stops
          ((Program.gives_request hcls).bind_stops (hstops.bind _))
      exact hprogram.asked ▸ hprogram.run ▸ .occupied namespaceDict cell cls body call _ hcall hcls
        hcell
    · have hprogram : program.Gives settings respond world [call.moment respond] cls
          (World.observe { (call.outcome respond).2 with heap } plan.completion) := by
        refine (Program.leads_heap _ world).gives ?_
        refine (Program.gives_request hcls).bind (hgives.bind ?_)
        exact Program.Gives.bind (Program.gives_effect rfl) (Program.gives_done cls _)
      exact hprogram.asked ▸ hprogram.run ▸ .built namespaceDict bodyResult cls body call _ heap
        hcall hcls hfilled
  · have hprogram : program.Stops settings respond world [call.moment respond] cut
        (call.outcome respond).2 :=
      (Program.leads_heap _ world).stops ((Program.stops_request hcut).bind _)
    exact hprogram.asked ▸ hprogram.run ▸ .callCut namespaceDict bodyResult body call cut _ hcall
      hcut

/-- What a construction does with a prepared namespace: the scope of the body is found, and the body
is run in it. -/
theorem Plan.follows_of_prepared {plan : Plan} {namespaceDict : Address}
    (hprepares : plan.Prepares respond (.value namespaceDict, world)) :
    let program : Program Value := do
      match ← runBody plan.definition.body namespaceDict with
      | none => return .null
      | some bodyResult => plan.conclude namespaceDict bodyResult
    plan.Follows respond (plan.prepareMoments respond ++ program.asked settings respond world)
      (program.run settings respond world) := by
  intro program
  rcases @findsScope_cases settings respond plan.definition.body namespaceDict world with
    ⟨locals, found, hscope, hfound⟩ | ⟨cut, final, hscope, hstops⟩
  · let body : Stage (Option Value) := ⟨plan.definition.bodyRequest locals, found⟩
    have hbody : plan.RunsBody respond namespaceDict body := ⟨world, locals, hprepares, hscope, rfl⟩
    have hleads : (runBody plan.definition.body namespaceDict).Leads settings respond world
        (Program.request body.request) found := hfound.leads _
    rcases Ending.value_or_cut (body.outcome respond) with ⟨result, hresult⟩ | ⟨cut, hcut⟩
    · have hgives := hleads.gives (Program.gives_request hresult)
      cases result with
      | some bodyResult =>
        show plan.Follows respond (_ ++ (_ >>= _ : Program Value).asked _ _ world)
          ((_ >>= _ : Program Value).run _ _ world)
        rw [hgives.asked_bind, hgives.run_bind]
        exact Plan.follows_of_result hbody hresult
      | none =>
        have hprogram : program.Gives settings respond world [body.moment respond] Value.null
            (body.outcome respond).2 := hgives.bind (Program.gives_done Value.null _)
        rw [hprogram.asked, hprogram.run]
        exact .unbuilt namespaceDict body _ hbody hresult
    · have hprogram : program.Stops settings respond world [body.moment respond] cut
          (body.outcome respond).2 := (hleads.stops (Program.stops_request hcut)).bind _
      rw [hprogram.asked, hprogram.run]
      exact .bodyCut namespaceDict body cut _ hbody hcut
  · have hprogram : program.Stops settings respond world [] cut final := (hstops.bind _).bind _
    rw [hprogram.asked, hprogram.run, List.append_nil]
    exact .unbound namespaceDict world cut final hprepares hscope

/-- What a construction does that has settled a plan. -/
theorem Plan.follows (plan : Plan) :
    plan.Follows respond (plan.construct.asked settings respond plan.world)
      (plan.construct.run settings respond plan.world) := by
  have hreport : (Program.effect (.reportMetaclass plan.definition.name plan.metaclassName)).Gives
      settings respond plan.world [] () plan.reported := Program.gives_effect rfl
  unfold Plan.construct
  rw [hreport.asked_bind, hreport.run_bind, List.nil_append]
  rcases @Plan.prepares_cases settings respond plan with
    ⟨namespaceDict, final, hprepares, hgives⟩ | ⟨cut, final, hprepares, hstops⟩
  · rw [hgives.asked_bind, hgives.run_bind]
    exact Plan.follows_of_prepared hprepares
  · rw [(hstops.bind _).asked, (hstops.bind _).run]
    exact .unprepared cut final hprepares

end

/-- A construction of a class, whatever it is given and whatever the requests that it makes answer
and do: either it settles no plan, makes no request and raises the exception of its arguments or of
its metaclass, or it follows the plan that it settles. There are at most three requests, each made
at most once and in this order: `__prepare__` is called if the metaclass has it, the body is run if
a namespace is prepared that it takes, and the metaclass is called if the body has a result. The
first of them to be cut ends the construction just as it ended itself. The namespace that is handed
on is the one dict that `__prepare__` has given, or a new one. A cell that the body gives is filled
with the class if it is empty, and is otherwise left as it is. -/
theorem follows_or_unsettled (settings : Settings)
    (respond : {Answer : Type} → Request Answer → World → Ending Answer × World)
    (arguments : Arguments) (world : World) :
    let asked := (run arguments).asked settings respond world
    let outcome := (run arguments).run settings respond world
    ((∀ plan : Plan, ¬plan.Settled settings respond arguments world) ∧ asked = [] ∧
      ∃ exception final, Unsettled settings respond arguments world exception final ∧
        outcome = (.raised exception, final)) ∨
    ∃ plan : Plan, plan.Settled settings respond arguments world ∧
      plan.Follows respond asked outcome := by
  intro asked outcome
  by_cases hplan : ∃ plan : Plan, plan.Settled settings respond arguments world
  · obtain ⟨plan, hsettled⟩ := hplan
    have hfollows := @Plan.follows settings respond plan
    rw [← (run_leads hsettled).asked, ← (run_leads hsettled).run] at hfollows
    exact Or.inr ⟨plan, hsettled, hfollows⟩
  · rcases @settled_or_unsettled settings respond arguments world with
      hsettled | ⟨exception, final, hunsettled, hstops⟩
    · exact absurd hsettled hplan
    · exact Or.inl ⟨fun plan hsettled ↦ hplan ⟨plan, hsettled⟩, hstops.asked, exception, final,
        hunsettled, hstops.run⟩

/-! ### A body that gives a cell -/

namespace Celled

/-- A class body that gives the cell of its closure. -/
def code : CodeRecord := ⟨"C", "c.py", [], true, .script [.result (.closureCell 0)]⟩

/-- A dict of globals, an empty cell, and a function with the code and the cell. -/
def heap : Heap :=
  (((Heap.empty.allocate (.dict .empty)).allocate (.cell none)).allocate (.code code)).allocate
    (.function ⟨"C", 0, 2, [1], []⟩)

/-- A world with these objects. -/
def world : World := { World.blank with heap }

/-- The function and a name, without bases. -/
def arguments : Arguments := ⟨[.function 3, .text "C"], none⟩

/-- What the construction requests. -/
def asked : List Moment := (run arguments).asked .scripted (Request.answer .scripted 2) world

/-- How the construction ends. -/
def outcome : Ending Value × World :=
  (run arguments).run .scripted (Request.answer .scripted 2) world

end Celled

/-- The body is run and then `type` is called, after which the cell is still empty. The answer is
the class that `type` has given, and the cell holds it. -/
theorem follows_or_unsettled_celled :
    (∃ plan : Plan,
      plan.Settled .scripted (Request.answer .scripted 2) Celled.arguments Celled.world ∧
        plan.Follows (Request.answer .scripted 2) Celled.asked Celled.outcome) ∧
      Celled.asked.map (fun moment ↦ (moment.before.heap.cell? 1, moment.after.heap.cell? 1)) =
        [(some none, some none), (some none, some none)] ∧
      Celled.outcome.1 = .value (.userClass 6) ∧
      Celled.outcome.2.heap.cell? 1 = some (some (.userClass 6)) := by
  have hvalue : Celled.outcome.1 = .value (.userClass 6) := by with_unfolding_all rfl
  refine ⟨?_, by with_unfolding_all rfl, hvalue, by with_unfolding_all rfl⟩
  rcases follows_or_unsettled .scripted (Request.answer .scripted 2) Celled.arguments
    Celled.world with ⟨-, -, exception, final, -, hraised⟩ | hfollows
  · have hraised : Celled.outcome = (.raised exception, final) := hraised
    rw [hraised] at hvalue
    cases hvalue
  · exact hfollows

end BuildClass

end Metaobject
