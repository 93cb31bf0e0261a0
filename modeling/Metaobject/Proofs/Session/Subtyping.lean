import Metaobject.Proofs.ClassGraph.Completeness
import Metaobject.Proofs.ClassGraph.MostDerived
import Metaobject.Proofs.Session.Hierarchy

/-!
# Subtyping in reachable worlds

Whatever classes a script has created, subtyping orders the classes partially, and a class is a
subtype of exactly the classes in its linearization (`Session.Reaches.subtyping_order`). For a class
built at run time this comes down to its bases (`Heap.Hierarchy.isSubtype_user_iff`).
-/

set_option autoImplicit false
set_option relaxedAutoImplicit false

namespace Metaobject

namespace Heap

variable {heap : Heap} {cls other : ClassRef}

theorem isSubtype_object (heap : Heap) (cls : ClassRef) :
    heap.isSubtype cls (.native .object) := by
  cases cls <;> rfl

/-- Nothing but `object` is above `object`. -/
theorem isSubtype_object_iff :
    heap.isSubtype (.native .object) other ↔ other = .native .object := by
  constructor
  · intro hsubtype
    cases other with
    | native kind => cases kind <;> first | rfl | exact absurd hsubtype Bool.false_ne_true
    | exception | user => exact absurd hsubtype Bool.false_ne_true
  · rintro rfl
    rfl

namespace Hierarchy

/-- The supertypes of a class are classes of the hierarchy too. -/
theorem hasClass_of_isSubtype (hhierarchy : heap.Hierarchy) (hcls : heap.HasClass cls)
    (hsubtype : heap.isSubtype cls other) : heap.HasClass other :=
  (hhierarchy.linear hcls).hasClass other ((hhierarchy.isSubtype_iff hcls).mp hsubtype)

/-- The stored ancestors of a class are the classes above its bases. -/
theorem mem_ancestors_iff (hhierarchy : heap.Hierarchy) {address : Address} {record : ClassRecord}
    (hrecord : heap.userClass? address = some record) :
    other ∈ record.linearization ↔
      ∃ base ∈ impliedBases record.bases, heap.isSubtype base other := by
  have hgrounded := hhierarchy address record hrecord
  unfold impliedBases
  rcases (heap.linearize_eq_ok_iff record.bases record.linearization).mp hgrounded.linearized with
    ⟨hbases, hobject⟩ | ⟨hbases, -, -, hmerge⟩
  · rw [hobject, hbases]
    simp [isSubtype_object_iff]
  · rw [if_neg (by simpa using hbases), mem_linearization_base (ClassGraph.merges_of_merge hmerge)]
    refine exists_congr fun base ↦ and_congr_right fun hbase ↦ ?_
    exact (hhierarchy.isSubtype_iff (hgrounded.hasClass_base hbase)).symm

/-- A class built at run time is below another class by being this class or through a base. -/
theorem isSubtype_user_iff (hhierarchy : heap.Hierarchy) {address : Address} {record : ClassRecord}
    (hrecord : heap.userClass? address = some record) :
    heap.isSubtype (.user address) other ↔
      other = .user address ∨ ∃ base ∈ impliedBases record.bases, heap.isSubtype base other := by
  have hcls : heap.HasClass (.user address) := Option.isSome_of_eq_some hrecord
  rw [hhierarchy.isSubtype_iff hcls, linearization_user hrecord, List.mem_cons,
    hhierarchy.mem_ancestors_iff hrecord]

end Hierarchy

end Heap

namespace Session

/-- Subtyping over whole runs. In every reachable world it is reflexive, transitive and
antisymmetric on the native types, the exception classes and the classes built at run time, leads
from a class to classes only, and holds exactly towards the classes of the linearization; `object`
is above everything; and a class built at run time is below the classes that one of its bases is
below and below itself, where a class without bases counts as having the base `object`. -/
theorem Reaches.subtyping_order {configuration : Configuration} {world : World}
    (hreaches : Reaches configuration world) :
    (∀ cls, world.heap.HasClass cls → world.heap.isSubtype cls cls) ∧
      (∀ first second third, world.heap.HasClass first → world.heap.isSubtype first second →
        world.heap.isSubtype second third → world.heap.isSubtype first third) ∧
      (∀ first second, world.heap.HasClass first → world.heap.isSubtype first second →
        world.heap.isSubtype second first → first = second) ∧
      (∀ cls other, world.heap.HasClass cls → world.heap.isSubtype cls other →
        world.heap.HasClass other) ∧
      (∀ cls other, world.heap.HasClass cls →
        (world.heap.isSubtype cls other ↔ other ∈ world.heap.linearization cls)) ∧
      (∀ cls, world.heap.isSubtype cls (.native .object)) ∧
      ∀ cls record, world.heap.userClass? cls = some record → ∀ other,
        (world.heap.isSubtype (.user cls) other ↔ other = .user cls ∨
          ∃ base ∈ Heap.impliedBases record.bases, world.heap.isSubtype base other) := by
  have hhierarchy := hreaches.wellFormed.hierarchy
  exact ⟨fun _ hcls ↦ hhierarchy.isSubtype_refl hcls,
    fun _ _ _ hfirst hbelow habove ↦ hhierarchy.isSubtype_trans hfirst hbelow habove,
    fun _ _ hfirst hbelow habove ↦ hhierarchy.isSubtype_antisymm hfirst hbelow habove,
    fun _ _ hcls hsubtype ↦ hhierarchy.hasClass_of_isSubtype hcls hsubtype,
    fun _ _ hcls ↦ hhierarchy.isSubtype_iff hcls,
    world.heap.isSubtype_object,
    fun _ _ hrecord _ ↦ hhierarchy.isSubtype_user_iff hrecord⟩

/-- In the diamond the last class is below the exception class that is a base of one of its bases;
and it stands below the first class, so the first class does not stand below it. -/
theorem subtyping_order_diamond :
    Diamond.session.world.heap.isSubtype (.user 12) (.exception .valueError) ∧
      ¬ Diamond.session.world.heap.isSubtype (.user 3) (.user 12) := by
  have hreaches : Reaches .scripted Diamond.session.world :=
    .rests (Rests.start.after 2 Diamond.statements)
  have hfirst : (Diamond.session.world.heap.userClass? 3).isSome := by decide +kernel
  have hlast : (Diamond.session.world.heap.userClass? 12).isSome := by decide +kernel
  have hside : Diamond.session.world.heap.isSubtype (.user 12) (.user 9) := by decide +kernel
  have hexception : Diamond.session.world.heap.isSubtype (.user 9) (.exception .valueError) := by
    decide +kernel
  have hbelow : Diamond.session.world.heap.isSubtype (.user 12) (.user 3) := by decide +kernel
  obtain ⟨-, htrans, hantisymm, -⟩ := hreaches.subtyping_order
  refine ⟨htrans (.user 12) (.user 9) (.exception .valueError) hlast hside hexception,
    fun habove ↦ ?_⟩
  exact absurd (hantisymm (.user 3) (.user 12) hfirst habove hbelow) (by decide)

end Session

end Metaobject
