import Metaobject.Attribute
import Metaobject.ClassCreation
import Metaobject.Proofs.Safety.Arguments
import Metaobject.Proofs.Safety.Operation

/-!
# Attributes and the creation of classes are safe

Reading and storing attributes of held values is safe (`Attribute.safe_get`, `Attribute.safe_set`),
and so is the creation of a class from held arguments: the metaclass that it finds stands above the
metaclasses of the bases (`ClassCreation.sound_definition`, `ClassCreation.safe_create`). The class
that is created has the most derived metaclass as its type.
-/

set_option autoImplicit false
set_option relaxedAutoImplicit false

namespace Metaobject

variable {heap : Heap}

namespace Attribute

variable {value receiver : Value}

theorem safe_bindTo (hreceiver : heap.Holds receiver) (hvalue : heap.Holds value) :
    (bindTo receiver value).Safe heap Heap.Holds := by
  unfold bindTo
  split
  · exact .new ⟨hreceiver, hvalue⟩ fun _ _ hnew ↦ hnew
  · exact .pure hvalue

theorem holds_classTuple {classes : List ClassRef} (hclasses : ∀ cls ∈ classes, heap.HasClass cls) :
    heap.Holds (classTuple classes) :=
  Heap.holds_tuple.mpr (Heap.holdsAll_map fun cls hcls ↦ Heap.holds_toValue.mpr (hclasses cls hcls))

theorem safe_ofInstance (hformed : heap.WellFormed) (hreceiver : heap.Holds receiver)
    {cls attributes : Address} (hattributes : heap.Holds (.dict attributes)) (name : String) :
    (ofInstance receiver cls attributes name).Safe heap Heap.Holds := by
  refine .heap_bind ?_
  split
  · exact .pure hattributes
  · split
    · rename_i found hfound
      exact .pure ((hformed.entries attributes).find? hfound)
    · split
      · rename_i found hfound
        exact safe_bindTo hreceiver (hformed.lookupUser hfound)
      · exact Capability.safe_invoke hformed "__getattr__" hreceiver
          (heap.holdsAll_nil.cons (.text name)) _

theorem holds_intrinsic (hformed : heap.WellFormed) {cls : Address} {record : ClassRecord}
    (hrecord : heap.userClass? cls = some record) {name : String}
    (hvalue : intrinsic? heap cls record name = some value) : heap.Holds value := by
  have hcls : heap.HasClass (.user cls) := Option.isSome_of_eq_some hrecord
  unfold intrinsic? at hvalue
  split at hvalue
  · exact Option.some.inj hvalue ▸ .text _
  · exact Option.some.inj hvalue ▸ hformed.namespaceDict hrecord
  · refine Option.some.inj hvalue ▸ holds_classTuple fun base hbase ↦ ?_
    split at hbase
    · obtain rfl := List.mem_singleton.mp hbase
      trivial
    · exact (hformed.hierarchy cls record hrecord).hasClass_base hbase
  · obtain rfl := Option.some.inj hvalue
    exact holds_classTuple fun ancestor ↦ hformed.hasClass_linearization hcls
  · cases hvalue

theorem safe_ofUserClass (hformed : heap.WellFormed) {cls : Address} {record : ClassRecord}
    (hrecord : heap.userClass? cls = some record) (name : String) :
    (ofUserClass cls record name).Safe heap Heap.Holds := by
  refine .heap_bind ?_
  split
  · rename_i found hfound
    exact .pure (holds_intrinsic hformed hrecord hfound)
  · split
    · rename_i found hfound
      exact .pure (hformed.lookupUser hfound)
    · split
      · rename_i found hfound
        exact safe_bindTo (Heap.holds_userClass.mpr (Option.isSome_of_eq_some hrecord))
          (hformed.lookup hfound)
      · trivial

theorem safe_ofNativeClass (hformed : heap.WellFormed) {cls : ClassRef} (hcls : heap.HasClass cls)
    (name : String) : (ofNativeClass heap cls name).Safe heap Heap.Holds := by
  unfold ofNativeClass
  split
  · exact .pure (.text _)
  · split
    · exact .pure (holds_classTuple fun ancestor ↦ hformed.hasClass_linearization hcls)
    · trivial

theorem safe_ofFunction {record : FunctionRecord} (hrecord : record.Sound heap) (name : String) :
    (ofFunction record name).Safe heap Heap.Holds := by
  unfold ofFunction
  split
  · exact .pure (.text _)
  · split
    · exact .pure hrecord.globals
    · split
      · exact .pure hrecord.code
      · trivial

theorem safe_ofModule (hformed : heap.WellFormed) {namespaceDict : Address}
    (hdict : heap.Holds (.dict namespaceDict)) (moduleName name : String) :
    (ofModule heap moduleName namespaceDict name).Safe heap Heap.Holds := by
  unfold ofModule
  split
  · exact .pure hdict
  · split
    · rename_i found hfound
      exact .pure ((hformed.entries namespaceDict).find? hfound)
    · trivial

theorem safe_ofKind (hformed : heap.WellFormed) (hvalue : heap.Holds value) (name : String) :
    (ofKind heap value name).Safe heap Heap.Holds := by
  unfold ofKind
  split
  · split
    · rename_i cls attributes hinstance
      exact safe_ofInstance hformed hvalue (hformed.instance? hinstance).2 name
    · trivial
  · split
    · rename_i record hrecord
      exact safe_ofUserClass hformed hrecord name
    · trivial
  · split
    · exact .pure (.text _)
    · trivial
  · exact safe_ofNativeClass hformed (by simp) name
  · exact safe_ofNativeClass hformed (by simp) name
  · split
    · rename_i record hrecord
      exact safe_ofFunction (hformed.function? hrecord) name
    · trivial
  · split
    · rename_i moduleName namespaceDict hmodule
      exact safe_ofModule hformed (hformed.module? hmodule) moduleName name
    · trivial
  · split
    · split
      · exact .pure (Heap.holds_tuple.mpr (Heap.holdsAll_map fun _ _ ↦ .text _))
      · trivial
    · trivial
  · trivial

/-- An attribute of a held value is held. -/
theorem safe_get (hformed : heap.WellFormed) (hvalue : heap.Holds value) (name : String) :
    (get value name).Safe heap Heap.Holds := by
  refine .heap_bind ?_
  split
  · exact .pure (Heap.holds_toValue.mpr (hformed.hasClass_typeOf hvalue))
  · exact safe_ofKind hformed hvalue name

theorem safe_set {content : Value} (hcontent : heap.Holds content) (value : Value)
    (name : String) : (set value name content).Safe heap fun _ _ ↦ True := by
  unfold set
  split
  · exact .effect hcontent fun _ _ _ _ ↦ trivial
  · exact .effect hcontent fun _ _ _ _ ↦ trivial
  · exact .effect hcontent fun _ _ _ _ ↦ trivial
  · trivial
  · trivial
  · exact .heap_bind trivial

end Attribute

/-- The most derived metaclass of what is there is there. -/
theorem Heap.WellFormed.holds_mostDerived (hformed : heap.WellFormed) {start : ClassRef}
    {bases : List Value} {metaclass : Value} (hstart : heap.HasClass start)
    (hbases : heap.HoldsAll bases)
    (hderived : (heap.mostDerivedMetaclass start bases).map ClassRef.toValue = .ok metaclass) :
    heap.Holds metaclass := by
  cases hwinner : heap.mostDerivedMetaclass start bases with
  | error =>
    rw [hwinner] at hderived
    cases hderived
  | ok winner =>
    rw [hwinner] at hderived
    cases hderived
    refine holds_toValue.mpr ?_
    obtain rfl | ⟨base, hbase, rfl⟩ := mem_of_mostDerived hwinner
    · exact hstart
    · exact hformed.hasClass_typeOf (hbases base hbase)

namespace ClassCreation

/-- The bases of a new class are classes, in their order. -/
theorem map_class_of_baseClasses {bases : List Value} {classes : List ClassRef}
    (hclasses : baseClasses bases = .ok classes) : bases.map Value.class? = classes.map some := by
  induction bases generalizing classes with
  | nil =>
    cases hclasses
    rfl
  | cons base rest ih =>
    unfold baseClasses at hclasses
    rw [List.mapM_cons] at hclasses
    obtain ⟨first, hfirst, hclasses⟩ := Arguments.exists_of_bind_ok hclasses
    obtain ⟨others, hothers, hclasses⟩ := Arguments.exists_of_bind_ok hclasses
    cases hclasses
    rw [List.map_cons, List.map_cons, ih hothers]
    split at hfirst
    · rename_i cls hbase
      rw [hbase, Except.ok.inj hfirst]
    · cases hfirst

/-- What a definition is made of: the metaclass is the most derived one. -/
theorem definition_eq_ok {metaclass : ClassRef} {name bases attributes : Value}
    {result : ClassDefinition}
    (hresult : definition heap metaclass name bases attributes = .ok result) :
    ∃ className values dict classes, name = .text className ∧ bases = .tuple values ∧
      attributes = .dict dict ∧ baseClasses values = .ok classes ∧ result.bases = classes ∧
      result.attributes = heap.entries dict ∧
      heap.mostDerivedMetaclass metaclass values = .ok result.metaclass := by
  unfold definition at hresult
  split at hresult
  · obtain ⟨classes, hclasses, hresult⟩ := Arguments.exists_of_bind_ok hresult
    obtain ⟨winner, hwinner, hresult⟩ := Arguments.exists_of_bind_ok hresult
    cases hresult
    exact ⟨_, _, _, classes, rfl, rfl, rfl, hclasses, rfl, rfl, hwinner⟩
  · cases hresult
  · cases hresult
  · cases hresult

/-- A definition made of held values is sound. -/
theorem sound_definition (hformed : heap.WellFormed) {metaclass : ClassRef}
    {name bases attributes : Value} {result : ClassDefinition} (hcls : heap.HasClass metaclass)
    (hmetatype : heap.isMetatype metaclass) (hbases : heap.Holds bases)
    (hresult : definition heap metaclass name bases attributes = .ok result) :
    result.Sound heap := by
  obtain ⟨_, values, dict, classes, -, rfl, -, hclasses, rfl, hattributes, hwinner⟩ :=
    definition_eq_ok hresult
  have hheld := Heap.holds_tuple.mp hbases
  have hmap := map_class_of_baseClasses hclasses
  have hbase : ∀ base ∈ result.bases, ∃ value ∈ values, value.class? = some base := by
    intro base hbase
    exact List.mem_map.mp (hmap ▸ List.mem_map_of_mem hbase)
  have htypes : ∀ value ∈ values, ∃ base, heap.typeOf value = heap.metaclassOf base := by
    intro value hvalue
    obtain ⟨base, -, hsame⟩ := List.mem_map.mp (hmap ▸ List.mem_map_of_mem hvalue)
    exact ⟨base, heap.typeOf_eq_metaclassOf hsame.symm⟩
  refine
    { bases := fun base hmem ↦ ?_, metaclass := ?_, isMetatype := ?_
      isSubtype := fun base hmem ↦ ?_, attributes := hattributes ▸ hformed.entries dict }
  · obtain ⟨value, hvalue, hsame⟩ := hbase base hmem
    exact (hheld value hvalue).hasClass hsame
  · obtain hstart | ⟨value, hvalue, htype⟩ := Heap.mem_of_mostDerived hwinner
    · exact hstart ▸ hcls
    · exact htype ▸ hformed.hasClass_typeOf (hheld value hvalue)
  · obtain hstart | ⟨value, hvalue, htype⟩ := Heap.mem_of_mostDerived hwinner
    · exact hstart ▸ hmetatype
    · obtain ⟨base, hsame⟩ := htypes value hvalue
      exact htype ▸ hsame ▸ hformed.hierarchy.metaclassOf_isMetatype base
  · obtain ⟨value, hvalue, hsame⟩ := hbase base hmem
    exact heap.typeOf_eq_metaclassOf hsame ▸ Heap.isSubtype_of_mostDerived hwinner hvalue

/-- The class that is created has the most derived metaclass. -/
theorem safe_create (hformed : heap.WellFormed) {metaclass : ClassRef} {arguments : Arguments}
    (hcls : heap.HasClass metaclass) (hmetatype : heap.isMetatype metaclass)
    (harguments : arguments.Held heap) :
    (create metaclass arguments).Safe heap fun newer value ↦ newer.Holds value ∧
      ∃ name bases dict, arguments.positional = [.text name, .tuple bases, .dict dict] ∧
        heap.mostDerivedMetaclass metaclass bases = .ok (newer.typeOf value) := by
  unfold create
  split
  · trivial
  · refine .ofFailure_bind fun ⟨name, bases, attributes⟩ hthree ↦ ?_
    have hpositional := Arguments.eq_of_three hthree
    have hbases : heap.Holds bases :=
      harguments.positional bases (hpositional ▸ List.mem_cons_of_mem _ List.mem_cons_self)
    refine .heap_bind (.ofExcept_bind fun definition hdefinition ↦ ?_)
    have hsound := sound_definition hformed hcls hmetatype hbases hdefinition
    obtain ⟨className, values, dict, -, rfl, rfl, rfl, -, -, -, hwinner⟩ :=
      definition_eq_ok hdefinition
    refine ⟨hsound, fun newer address _ ⟨record, hrecord, hmetaclass⟩ ↦ ?_⟩
    refine ⟨Heap.holds_userClass.mpr (Option.isSome_of_eq_some hrecord), className, values, dict,
      hpositional, ?_⟩
    rw [hwinner, ← hmetaclass]
    exact congrArg Except.ok (Heap.metaclassOf_user hrecord).symm

end ClassCreation

end Metaobject
