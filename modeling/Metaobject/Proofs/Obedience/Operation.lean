import Metaobject.Attribute
import Metaobject.ClassCreation
import Metaobject.Operation.Iteration
import Metaobject.Operation.Number
import Metaobject.Operation.Text
import Metaobject.Proofs.Number.Rounding
import Metaobject.Proofs.Obedience.Arguments

/-!
# What operations and attributes do

Operations on values, attributes and the class constructor obey every policy that permits what they
guard. Only one step of an iterator guards anything: it guards the call of `__next__`
(`Operation.obeys_advance`). Calls, whatever they lead to, are requests, so what they do is no part
of the operation.
-/

set_option autoImplicit false
set_option relaxedAutoImplicit false

namespace Metaobject

variable {policy : Policy}

/-! ### Capabilities -/

theorem Capability.obeys_invoke? (receiver : Value) (name : String) (arguments : List Value)
    (keywords : Option Address) : (invoke? receiver name arguments keywords).Obeys policy := by
  refine .heap_bind fun heap ↦ ?_
  split
  · trivial
  · exact .bind (.call _ _) fun _ ↦ .pure _

theorem Capability.obeys_invoke (receiver : Value) (name : String) (arguments : List Value)
    (missing : Heap → Exception) : (invoke receiver name arguments missing).Obeys policy := by
  refine .bind (obeys_invoke? receiver name arguments none) fun found ↦ ?_
  cases found with
  | some result => trivial
  | none => exact .heap_bind fun _ ↦ trivial

/-! ### Operations -/

namespace Operation

theorem obeys_absolute (value : Value) : (absolute value).Obeys policy := by
  unfold absolute
  split
  · trivial
  · exact Capability.obeys_invoke value _ _ _

theorem obeys_powerOfIntegers (base exponent : Int) :
    (powerOfIntegers base exponent).Obeys policy := by
  unfold powerOfIntegers
  split
  · exact .ofExcept _
  · split
    · trivial
    · split
      · trivial
      · exact .effect_bind trivial fun _ _ ↦ .pure _

theorem obeys_nativePower {base exponent : Value} {program : Program Value}
    (hprogram : nativePower? base exponent = some program) : program.Obeys policy := by
  unfold nativePower? at hprogram
  split at hprogram
  · rw [← Option.some.inj hprogram]
    exact obeys_powerOfIntegers _ _
  · split at hprogram
    · rw [← Option.some.inj hprogram]
      exact .ofExcept _
    · cases hprogram

theorem obeys_nativeModularPower {base exponent modulus : Value} {program : Program Value}
    (hprogram : nativeModularPower? base exponent modulus = some program) :
    program.Obeys policy := by
  unfold nativeModularPower? at hprogram
  split at hprogram
  · rw [← Option.some.inj hprogram]
    exact .ofExcept _
  · split at hprogram
    · rw [← Option.some.inj hprogram]
      trivial
    · cases hprogram

theorem obeys_userPower (base exponent : Value) (modulus : Option Value) :
    (userPower base exponent modulus).Obeys policy := by
  refine .bind (Capability.obeys_invoke? base _ _ _) fun found ↦ ?_
  cases found with
  | some result => trivial
  | none =>
    cases modulus with
    | some modulus => exact .heap_bind fun _ ↦ trivial
    | none =>
      refine .bind (Capability.obeys_invoke? exponent _ _ _) fun reflected ↦ ?_
      cases reflected with
      | some result => trivial
      | none => exact .heap_bind fun _ ↦ trivial

theorem obeys_power (base exponent : Value) (modulus : Option Value) :
    (power base exponent modulus).Obeys policy := by
  have huser : (userPower base exponent modulus).Obeys policy :=
    obeys_userPower base exponent modulus
  cases modulus with
  | none =>
    cases hnative : nativePower? base exponent with
    | some program =>
      rw [power, hnative]
      exact obeys_nativePower hnative
    | none =>
      rw [power, hnative]
      exact huser
  | some modulus =>
    cases hnative : nativeModularPower? base exponent modulus with
    | some program =>
      rw [power, hnative]
      exact obeys_nativeModularPower hnative
    | none =>
      rw [power, hnative]
      exact huser

theorem obeys_round (number digits : Value) : (round number digits).Obeys policy := by
  unfold round
  split
  · refine .heap_bind fun heap ↦ .ofExcept_bind fun places _ ↦ ?_
    split
    · rename_i outcome houtcome
      exact .ofFailure (regular_nativeRound houtcome)
    · trivial
  · exact Capability.obeys_invoke number _ _ _

theorem obeys_textAnswer (method : String) (answer : Value) :
    (textAnswer method answer).Obeys policy := by
  unfold textAnswer
  split
  · trivial
  · exact .heap_bind fun _ ↦ trivial

theorem obeys_textOf (value : Value) : (textOf value).Obeys policy := by
  unfold textOf
  split
  · refine .bind (Capability.obeys_invoke? _ _ _ _) fun found ↦ ?_
    cases found with
    | some answer => exact obeys_textAnswer _ answer
    | none =>
      refine .bind (Capability.obeys_invoke? _ _ _ _) fun found ↦ ?_
      cases found with
      | some answer => exact obeys_textAnswer _ answer
      | none => exact .heap_bind fun _ ↦ trivial
  · exact .heap_bind fun _ ↦ trivial

theorem obeys_length (value : Value) : (length value).Obeys policy := by
  refine .heap_bind fun heap ↦ ?_
  split
  · trivial
  · exact .bind (Capability.obeys_invoke value _ _ _) fun _ ↦ .heap_bind fun _ ↦ .ofExcept _

theorem obeys_iterate (value : Value) : (iterate value).Obeys policy := by
  unfold iterate
  split
  · trivial
  · refine .heap_bind fun heap ↦ ?_
    split
    · exact .new trivial
    · exact Capability.obeys_invoke value _ _ _

/-- One step of an iterator guards the call of `__next__`. -/
theorem obeys_advance {iterator : Value} (hguards : policy.guards (.exactly .stopIteration)
      (Capability.invoke? iterator "__next__" [] none)) : (advance iterator).Obeys policy := by
  unfold advance
  split
  · refine .effect_bind trivial fun found _ ↦ ?_
    cases found <;> trivial
  · refine .handling_bind hguards (Capability.obeys_invoke? iterator _ _ _) fun outcome ↦ ?_
    split
    · trivial
    · exact .heap_bind fun _ ↦ trivial
    · trivial

/-- What is drained is no native iterator. -/
theorem obeys_collect (hdrains : policy.DrainsForeign) (value : Value) :
    (collect value).Obeys policy := by
  unfold collect
  split
  · trivial
  · exact .heap_bind fun _ ↦ trivial
  · refine .bind (obeys_iterate value) fun iterator ↦ ?_
    split
    · exact .effect trivial
    · rename_i hforeign
      exact .request (hdrains iterator hforeign)

end Operation

/-! ### Attributes -/

namespace Attribute

theorem obeys_bindTo (receiver value : Value) : (bindTo receiver value).Obeys policy := by
  unfold bindTo
  split
  · exact .new trivial
  · trivial

theorem obeys_ofInstance (receiver : Value) (cls attributes : Address) (name : String) :
    (ofInstance receiver cls attributes name).Obeys policy := by
  refine .heap_bind fun heap ↦ ?_
  split
  · trivial
  · split
    · trivial
    · split
      · exact obeys_bindTo receiver _
      · exact Capability.obeys_invoke receiver _ _ _

theorem obeys_ofUserClass (cls : Address) (record : ClassRecord) (name : String) :
    (ofUserClass cls record name).Obeys policy := by
  refine .heap_bind fun heap ↦ ?_
  split
  · trivial
  · split
    · trivial
    · split
      · exact obeys_bindTo _ _
      · trivial

theorem obeys_ofNativeClass (heap : Heap) (cls : ClassRef) (name : String) :
    (ofNativeClass heap cls name).Obeys policy := by
  unfold ofNativeClass
  repeat (split; trivial)
  trivial

theorem obeys_ofFunction (record : FunctionRecord) (name : String) :
    (ofFunction record name).Obeys policy := by
  unfold ofFunction
  repeat (split; trivial)
  trivial

theorem obeys_ofModule (heap : Heap) (moduleName : String) (namespaceDict : Address)
    (name : String) : (ofModule heap moduleName namespaceDict name).Obeys policy := by
  unfold ofModule
  split
  · trivial
  · split <;> trivial

theorem obeys_ofKind (heap : Heap) (value : Value) (name : String) :
    (ofKind heap value name).Obeys policy := by
  cases value with
  | builtin builtin =>
    cases builtin with
    | function builtin =>
      unfold ofKind
      dsimp only
      split <;> trivial
    | type kind => exact obeys_ofNativeClass heap (.native kind) name
    | exception cls => exact obeys_ofNativeClass heap (.exception cls) name
  | object address =>
    unfold ofKind
    dsimp only
    split
    · exact obeys_ofInstance _ _ _ name
    · trivial
  | userClass address =>
    unfold ofKind
    dsimp only
    split
    · exact obeys_ofUserClass address _ name
    · trivial
  | function address =>
    unfold ofKind
    dsimp only
    split
    · exact obeys_ofFunction _ name
    · trivial
  | moduleObject address =>
    unfold ofKind
    dsimp only
    split
    · exact obeys_ofModule heap _ _ name
    · trivial
  | exception address =>
    unfold ofKind
    dsimp only
    split
    · split <;> trivial
    · trivial
  | _ => trivial

theorem obeys_get (value : Value) (name : String) : (get value name).Obeys policy := by
  refine .heap_bind fun heap ↦ ?_
  split
  · trivial
  · exact obeys_ofKind heap value name

theorem obeys_set (value : Value) (name : String) (content : Value) :
    (set value name content).Obeys policy := by
  unfold set
  split
  · exact .effect trivial
  · exact .effect trivial
  · exact .effect trivial
  · trivial
  · trivial
  · exact .heap_bind fun _ ↦ trivial

end Attribute

/-! ### Creating classes -/

theorem ClassCreation.obeys_create (metaclass : ClassRef) (arguments : Arguments) :
    (create metaclass arguments).Obeys policy := by
  unfold create
  split
  · trivial
  · refine .ofFailure_bind Arguments.regular_three fun bound _ ↦ ?_
    exact .heap_bind fun heap ↦ .ofExcept_bind fun definition _ ↦ .new trivial

end Metaobject
