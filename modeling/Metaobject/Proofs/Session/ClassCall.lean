import Metaobject.Proofs.Builtin.ClassCall
import Metaobject.Proofs.Run.Reachable

/-!
# Calls of classes in reachable worlds

Every call of a class that goes below the depth limit keeps to the contract of such calls, whatever
the called code does (`Session.Reaches.class_call`). The contract has one surprise. A class whose
`__new__` is gone when it returns counts as a class without `__new__`, so an object that it has made
from arguments is refused for want of an `__init__` that takes them (`Session.class_call_refused`).
-/

set_option autoImplicit false
set_option relaxedAutoImplicit false

namespace Metaobject

/-- A call of a class below the depth limit runs its program one level deeper. -/
theorem Request.answer_call_class {settings : Settings} {patience : Nat} {cls : Address}
    {arguments : Arguments} {world : World} (hdepth : world.depth < settings.limits.maxDepth) :
    let outcome := (Call.construct cls arguments).run settings (Request.answer settings patience)
      (world.entered (.userClass cls) arguments)
    Request.answer settings (patience + 1) (.call (.userClass cls) arguments) world =
      (outcome.1, { outcome.2 with depth := outcome.2.depth - 1 }) := by
  show world.deeper settings _ = _
  unfold World.deeper
  rw [if_neg (Nat.not_le_of_lt hdepth)]
  rfl

namespace Session

/-- Calls of classes over whole runs. In every reachable world a call of a class built at run time
below the depth limit, with any arguments, makes its own requests and ends as stated for a class
without `__new__` if lookup finds none when the class is called (`Call.WithoutNew`), and for a class
with the `__new__` that lookup finds otherwise (`Call.WithNew`). -/
theorem Reaches.class_call {configuration : Configuration} {world : World}
    (hreaches : Reaches configuration world) {cls : Address} {arguments : Arguments}
    (hcls : (world.heap.userClass? cls).isSome) (harguments : arguments.Held world.heap)
    (hdepth : world.depth < (start configuration).settings.limits.maxDepth) (patience : Nat) :
    let settings := (start configuration).settings
    let entered := world.entered (.userClass cls) arguments
    let asked := (Call.dispatch (.userClass cls) arguments).asked settings
      (Request.answer settings patience) entered
    let outcome := Request.answer settings (patience + 1) (.call (.userClass cls) arguments) world
    (world.heap.lookupUser "__new__" cls = none →
      Call.WithoutNew settings (Request.answer settings patience) cls arguments entered asked
        outcome.1 outcome.2.heap) ∧
    ∀ method, world.heap.lookupUser "__new__" cls = some method →
      Call.WithNew (Request.answer settings patience) cls arguments method entered asked
        outcome.1 := by
  intro settings entered asked outcome
  have hasked : asked = (Call.construct cls arguments).asked settings
      (Request.answer settings patience) entered :=
    (Program.leads_heap _ entered).asked
  have houtcome : outcome = _ := Request.answer_call_class hdepth
  rw [hasked, houtcome]
  refine ⟨fun hnew ↦ ?_, fun method hmethod ↦ Call.withNew_construct hmethod⟩
  exact Call.withoutNew_construct (Request.answer_sound settings patience) hreaches.wellFormed
    hreaches.settings_held (Heap.holds_userClass.mpr hcls) harguments hnew

/-! ### A class that initializes and a class that forgets how it makes objects -/

namespace Making

open Script

/-- An `__init__` that takes a value and gives `null`. -/
def initializer : String × Expression := method "__init__" ["self", "x"] [.result (.literal .null)]

/-- A `__new__` that takes a value, removes itself from the class and calls the class. -/
def maker : String × Expression :=
  method "__new__" ["cls", "x"]
    [.evaluate (.probe (.dict .remove)
      [.probe (.cls .namespaceDict) [.variable "cls"], .literal (.text "__new__")]),
     .result (.call (.variable "cls") [] .absent)]

/-- A class `A` with `__init__`, and a class `B` with `__new__`. -/
def statements : List Statement :=
  [.evaluate (creation type "A" [] [initializer]), .evaluate (creation type "B" [] [maker])]

/-- The session after the two classes are created, `A` at 5 and `B` at 10. -/
def session : Session := (start .scripted).after 3 statements

/-- One argument. -/
def arguments : Arguments := .ofList [.int 1]

/-- How calls of the class at an address are answered. -/
def outcome (cls : Address) : Ending Value × World :=
  Request.answer (start .scripted).settings 5 (.call (.userClass cls) arguments) session.world

/-- The call of `__new__` inside the call of `B`. -/
def made (method : Value) : Ending Value × World :=
  Request.answer (start .scripted).settings 4
    (.call method (arguments.cons (.userClass 10)))
    (session.world.entered (.userClass 10) arguments)

theorem held_arguments (heap : Heap) : arguments.Held heap := by
  refine Arguments.held_ofList fun value hvalue ↦ ?_
  obtain rfl := List.mem_singleton.mp hvalue
  exact .int 1

end Making

/-- The call of `A` gives a new object of `A`. -/
theorem class_call_initialized :
    ∃ value, (Making.outcome 5).1 = .value value ∧
      (∃ address, Making.session.world.heap.get? address = none ∧
        (value = .userClass address ∨ value = .object address)) ∧
      (Making.outcome 5).2.heap.isSubtype ((Making.outcome 5).2.heap.typeOf value) (.user 5) := by
  have hreaches : Reaches .scripted Making.session.world :=
    .rests (Rests.start.after 3 Making.statements)
  have hcls : (Making.session.world.heap.userClass? 5).isSome := by decide +kernel
  have hdepth : Making.session.world.depth <
      (start .scripted).settings.limits.maxDepth := by decide +kernel
  have hnew : (Making.session.world.heap.lookupUser "__new__" 5).isNone := by
    with_unfolding_all decide
  have hvalue : (Making.outcome 5).1.isValue := by with_unfolding_all decide
  obtain ⟨hwithout, -⟩ := hreaches.class_call hcls (Making.held_arguments _) hdepth 4
  have hcontract := hwithout (Option.isNone_iff_eq_none.mp hnew)
  rcases Ending.value_or_cut (Making.outcome 5) with ⟨value, hanswer⟩ | ⟨cut, hanswer⟩
  · have hending : (Making.outcome 5).1 = .value value := congrArg Prod.fst hanswer
    exact ⟨value, hending, hcontract.isNew value hending, hcontract.isSubtype value hending⟩
  · rw [hanswer] at hvalue
    cases cut <;> cases hvalue

/-- A class without `__init__` does not always give the object of the class that its `__new__` has
made: the call of `B` is refused. -/
theorem class_call_refused :
    ¬∀ (configuration : Configuration) (world : World) (cls : Address) (arguments : Arguments)
      (patience : Nat) (method created : Value) (middle : World), Reaches configuration world →
      (world.heap.userClass? cls).isSome → arguments.Held world.heap →
      world.depth < (start configuration).settings.limits.maxDepth →
      world.heap.lookupUser "__new__" cls = some method →
      Request.answer (start configuration).settings patience
          (.call method (arguments.cons (.userClass cls)))
          (world.entered (.userClass cls) arguments) = (.value created, middle) →
      middle.heap.isSubtype (middle.heap.typeOf created) (.user cls) →
      middle.heap.lookupUser "__init__" cls = none →
      (Request.answer (start configuration).settings (patience + 1)
        (.call (.userClass cls) arguments) world).1 = .value created := by
  intro hclaim
  have hmethod : Making.session.world.heap.lookupUser "__new__" 10 = some (.function 7) := by
    with_unfolding_all rfl
  have hmade : (Making.made (.function 7)).1 = .value (.object 13) := by with_unfolding_all rfl
  have hsubtype : (Making.made (.function 7)).2.heap.isSubtype
      ((Making.made (.function 7)).2.heap.typeOf (.object 13)) (.user 10) := by
    with_unfolding_all decide
  have hinit : ((Making.made (.function 7)).2.heap.lookupUser "__init__" 10).isNone := by
    with_unfolding_all decide
  have hvalue := hclaim .scripted Making.session.world 10 Making.arguments 4
    (.function 7) (.object 13) _ (.rests (Rests.start.after 3 Making.statements))
    (by decide +kernel) (Making.held_arguments _) (by decide +kernel) hmethod
    (Prod.ext hmade rfl) hsubtype (Option.isNone_iff_eq_none.mp hinit)
  have hrefused : ¬(Making.outcome 10).1.isValue := by with_unfolding_all decide
  exact hrefused (congrArg Ending.isValue hvalue)

end Session

end Metaobject
