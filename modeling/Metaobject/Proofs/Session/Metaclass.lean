import Metaobject.Proofs.Builtin.Resolution

/-!
# Metaclasses in reachable worlds

In every reachable world the metaclass of a class is `type` or a class below it, older than the
class and below the metaclasses of all its ancestors; and what `__build_class__` gives is of exactly
the class that it has resolved as the metaclass, if this class creates it
(`Session.metaclass_invariant`).
-/

set_option autoImplicit false
set_option relaxedAutoImplicit false

namespace Metaobject

namespace Session

/-- Metaclasses over whole runs. In every reachable world the metaclass of a class is `type` or a
class below `type` that was there before; it is a subtype of the metaclass of every ancestor; and
following metaclasses leads to `type`. Whenever `__build_class__` resolves a class as the metaclass,
the class has no `__new__` when it is called, and the answer is a value, the value is of exactly
this class. -/
theorem metaclass_invariant (configuration : Configuration) :
    (∀ world, Reaches configuration world →
      ∀ cls record, world.heap.userClass? cls = some record →
        (record.metaclass = .native .type ∨ ∃ metaclass, record.metaclass = .user metaclass ∧
          metaclass < cls ∧ world.heap.isMetaclass metaclass) ∧
        (∀ ancestor ∈ record.linearization,
          world.heap.isSubtype record.metaclass (world.heap.metaclassOf ancestor)) ∧
        ∃ steps, world.heap.metaclassOf^[steps] (.user cls) = .native .type) ∧
    ∀ (moment : Moment) (arguments : Arguments) (patience : Nat) (metaclass : ClassRef)
      (value : Value) (after : World),
      let settings := (start configuration).settings
      let builder : Value := .builtin (.function .buildClass)
      Passes configuration moment → moment.action = .asks (.call builder arguments) →
        BuildClass.CallsWithoutNew settings (Request.answer settings patience) arguments
          (moment.before.entered builder arguments) metaclass →
        Request.answer settings (patience + 1) (.call builder arguments) moment.before =
          (.value value, after) →
        after.heap.typeOf value = metaclass := by
  constructor
  · intro world hreaches cls record hrecord
    have hhierarchy := hreaches.wellFormed.hierarchy
    have hgrounded := hhierarchy cls record hrecord
    refine ⟨?_, fun ancestor hancestor ↦ ?_, hhierarchy.exists_iterate_metaclassOf (.user cls)⟩
    · obtain htype | ⟨metaclass, hmetaclass, hbelow⟩ :=
        Heap.isMetatype_cases hgrounded.metaclass_isMetatype
      · exact Or.inl htype
      · exact Or.inr ⟨metaclass, hmetaclass, (hgrounded.metaclass_older metaclass hmetaclass).1,
          hbelow⟩
    · rw [← Heap.metaclassOf_user hrecord]
      refine hhierarchy.isSubtype_metaclassOf (Option.isSome_of_eq_some hrecord) ?_
      rw [Heap.linearization_user hrecord]
      exact List.mem_cons_of_mem _ hancestor
  · intro moment arguments patience metaclass value after settings builder hpasses haction hcalls
      hanswer
    obtain ⟨heap, hheld, hsound⟩ := hpasses.sound
    have hformed := hsound.before.formed
    have hsettings := hheld.grow hsound.before.grows
    obtain ⟨-, harguments⟩ := hsound.admissible _ haction
    obtain ⟨final, hrun, hheap⟩ := Request.answer_call_eq_value hanswer
    rw [← moment.before.heap_entered builder arguments] at hformed hsettings harguments
    exact hheap ▸ BuildClass.typeOf_of_callsWithoutNew hformed hsettings harguments hcalls hrun

/-! ### A class with a metaclass of its own -/

namespace Derived

open Script

/-- The class `M` below `type`. -/
def metaclass : Statement :=
  .assign .locals "M" (creation type "M" [type] [])

/-- A class body that leaves its namespace empty. -/
def body : CodeExpression := .mk "c.py" [] true (.script [.result (.literal .ellipsis)])

/-- The construction of a class `C` with the metaclass `M`. -/
def build : Statement :=
  .evaluate (.call (.builtin "__build_class__")
    [.function "C" body [] [] none, .literal (.text "C")] (.pairs [("metaclass", .variable "M")]))

/-- The session after `M` is created, at the address 3. -/
def session : Session := (start .scripted).after 2 [metaclass]

/-- The arguments of the construction: the body at 5, the name, and the keywords at 6. -/
def arguments : Arguments := ⟨[.function 5, .text "C"], some 6⟩

/-- The world in which the construction is asked for. -/
def world : World :=
  let code := Object.code ⟨"C", "c.py", [], true, .script [.result (.literal .ellipsis)]⟩
  let function := Object.function ⟨"C", 0, 4, [], []⟩
  let keywords := Object.dict (.ofList [("metaclass", .userClass 3)])
  session.world.mapHeap fun heap ↦
    ((heap.allocate code).allocate function).allocate keywords

/-- The moment at which the construction is asked for. -/
def moment : Moment := ⟨.asks (.call (.builtin (.function .buildClass)) arguments), world, world⟩

/-- The world in which the construction starts. -/
def entered : World := world.entered (.builtin (.function .buildClass)) arguments

/-- The plan of the construction. -/
def plan : BuildClass.Plan :=
  ⟨⟨⟨"C", 0, 4, [], []⟩, "C", []⟩, some (.userClass 3), none, .userClass 3, entered⟩

/-- How the requests of the construction are answered. -/
def respond {Answer : Type} : Request Answer → World → Ending Answer × World :=
  Request.answer (start .scripted).settings 2

theorem settled : plan.Settled (start .scripted).settings respond arguments entered where
  definition := rfl
  explicit := rfl
  keywords := ⟨rfl, rfl⟩
  unchanged := .refl _
  metaclass := rfl

/-- The metaclass has no `__new__` when it is called. -/
theorem callsWithoutNew : BuildClass.CallsWithoutNew (start .scripted).settings respond
    arguments entered (.user 3) := by
  let last := ((BuildClass.run arguments).asked (start .scripted).settings respond
    entered).getLast?
  have hlast : last.isSome := by with_unfolding_all decide
  have hcalled : last.bind Moment.calledClass? = some (.user 3) := by with_unfolding_all decide
  have hlookup : (last.bind fun call ↦
    call.before.heap.lookup "__new__" (.user 3)).isNone := by with_unfolding_all decide
  obtain ⟨call, hcall⟩ := Option.isSome_iff_exists.mp hlast
  rw [hcall] at hcalled hlookup
  exact ⟨plan, call, settled, rfl, hcall, hcalled, Option.isNone_iff_eq_none.mp hlookup⟩

end Derived

/-- The class that is built is of its metaclass, whose own metaclass is `type`. -/
theorem metaclass_invariant_derived :
    let builder : Value := .builtin (.function .buildClass)
    ∃ value after, Request.answer (start .scripted).settings 3
        (.call builder Derived.arguments) Derived.world = (.value value, after) ∧
      after.heap.typeOf value = .user 3 ∧
        ∃ steps, Derived.session.world.heap.metaclassOf^[steps] (.user 3) = .native .type := by
  intro builder
  obtain ⟨hclasses, hbuilt⟩ := metaclass_invariant .scripted
  have hrests : Rests .scripted Derived.session :=
    Rests.start.after 2 [Derived.metaclass]
  have hclass : (Derived.session.world.heap.userClass? 3).isSome := by decide +kernel
  obtain ⟨record, hrecord⟩ := Option.isSome_iff_exists.mp hclass
  obtain ⟨-, -, hchain⟩ := hclasses _ (.rests hrests) 3 record hrecord
  have hmoment : (Derived.session.history 3 Derived.build)[5]? = some Derived.moment := rfl
  have hpasses : Passes .scripted Derived.moment :=
    ⟨Derived.session, 3, Derived.build, hrests, List.mem_of_getElem? hmoment⟩
  have hvalue : (Request.answer (start .scripted).settings 3
    (.call builder Derived.arguments) Derived.world).1.isValue := by decide +kernel
  rcases Ending.value_or_cut (Request.answer (start .scripted).settings 3
    (.call builder Derived.arguments) Derived.world) with ⟨value, hanswer⟩ | ⟨cut, hanswer⟩
  · exact ⟨value, _, hanswer, hbuilt Derived.moment Derived.arguments 2 (.user 3) value _ hpasses
      rfl Derived.callsWithoutNew hanswer, hchain⟩
  · rw [hanswer] at hvalue
    cases cut <;> cases hvalue

end Session

end Metaobject
