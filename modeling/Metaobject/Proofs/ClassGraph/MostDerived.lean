import Mathlib.Data.Finset.Dedup
import Mathlib.Data.Finset.Insert
import Metaobject.Proofs.ClassGraph.Lookup
import Metaobject.Proofs.ClassGraph.Metaclass

/-!
# The most derived class of a set

The metaclass of a new class is sought along a list of candidates, and the first one is taken that
is a subtype of all. In a hierarchy the order of the list is no matter. Two classes are subtypes of
each other only if they are the same (`Hierarchy.isSubtype_antisymm`), so a set of classes has at
most one member below all of them (`Heap.IsMostDerived`, `Hierarchy.isMostDerived_unique`), and what
is found is that member or nothing (`Hierarchy.mostDerivedMetaclass_eq_ok_iff`). Hence two searches
agree when the same classes are most derived among their candidates
(`Hierarchy.mostDerivedMetaclass_congr`), in particular when one of the two also has `type` among
its candidates, which are metaclasses anyway (`isMostDerived_insert_type`).
-/

set_option autoImplicit false
set_option relaxedAutoImplicit false

namespace Metaobject.Heap

/-! ### Candidates as a set -/

/-- The classes among which a metaclass is sought: the one asked for and the types of the bases. -/
def candidateSet (heap : Heap) (start : ClassRef) (bases : List Value) : Finset ClassRef :=
  insert start (bases.map heap.typeOf).toFinset

/-- A class of a set that is a subtype of all classes of the set. -/
structure IsMostDerived (heap : Heap) (candidates : Finset ClassRef) (winner : ClassRef) :
    Prop where
  mem : winner ∈ candidates
  isSubtype : ∀ other ∈ candidates, heap.isSubtype winner other

variable {heap : Heap} {start other winner : ClassRef} {bases others : List Value}

theorem mem_candidateSet {cls : ClassRef} :
    cls ∈ heap.candidateSet start bases ↔ cls = start ∨ ∃ base ∈ bases, heap.typeOf base = cls := by
  simp [candidateSet]

theorem mem_candidateSet_iff_mem_candidates {cls : ClassRef} :
    cls ∈ heap.candidateSet start bases ↔ cls ∈ heap.metaclassCandidates start bases := by
  rw [mem_candidateSet, mem_metaclassCandidates]
  simp only [eq_comm]

/-- The candidates are a matter of which bases there are, not of their order or repetition. -/
theorem candidateSet_congr (heap : Heap) (start : ClassRef)
    (hsame : ∀ value, value ∈ others ↔ value ∈ bases) :
    heap.candidateSet start others = heap.candidateSet start bases := by
  ext cls
  simp only [mem_candidateSet, hsame]

theorem candidateSet_typeOf_head {base : Value} (hbase : base ∈ bases) (heap : Heap) :
    heap.candidateSet (.native .type) bases =
      insert (.native .type) (heap.candidateSet (heap.typeOf base) bases) := by
  ext cls
  simp only [mem_candidateSet, Finset.mem_insert]
  have hhead : cls = heap.typeOf base → ∃ base ∈ bases, heap.typeOf base = cls := fun hcls ↦
    ⟨base, hbase, hcls.symm⟩
  tauto

/-- Whatever is found is most derived among the candidates. -/
theorem isMostDerived_of_eq_ok (hwinner : heap.mostDerivedMetaclass start bases = .ok winner) :
    heap.IsMostDerived (heap.candidateSet start bases) winner := by
  obtain ⟨hmem, hall⟩ := mostDerivedMetaclass_eq_ok hwinner
  exact ⟨mem_candidateSet_iff_mem_candidates.mpr hmem, fun other hother ↦
    hall other (mem_candidateSet_iff_mem_candidates.mp hother)⟩

/-- If nothing is found, no candidate is a subtype of all. -/
theorem not_isMostDerived_of_eq_error {fault : Exception}
    (hfault : heap.mostDerivedMetaclass start bases = .error fault) :
    fault = .metaclassConflict ∧
      ¬∃ winner, heap.IsMostDerived (heap.candidateSet start bases) winner := by
  unfold mostDerivedMetaclass at hfault
  dsimp only at hfault
  split at hfault
  · cases hfault
  · rename_i hnone
    refine ⟨(Except.error.inj hfault).symm, fun ⟨winner, hmem, hall⟩ ↦ ?_⟩
    refine List.find?_eq_none.mp hnone winner (mem_candidateSet_iff_mem_candidates.mp hmem) ?_
    exact List.all_eq_true.mpr fun other hother ↦
      hall other (mem_candidateSet_iff_mem_candidates.mpr hother)

/-! ### At most one class is most derived -/

namespace Hierarchy

/-- Classes that are subtypes of each other are the same: the linearization of each is a part of
the other, and the two classes are where it begins. -/
theorem isSubtype_antisymm (hhierarchy : heap.Hierarchy) {first second : ClassRef}
    (hfirst : heap.HasClass first) (hbelow : heap.isSubtype first second)
    (habove : heap.isSubtype second first) : first = second := by
  have hlinear := hhierarchy.linear hfirst
  have hmem := (hhierarchy.isSubtype_iff hfirst).mp hbelow
  have hsecond := hlinear.hasClass second hmem
  have hback := (hhierarchy.isSubtype_iff hsecond).mp habove
  have hsame : heap.linearization first = heap.linearization second :=
    ((hhierarchy.linear hsecond).sublist first hback).antisymm (hlinear.sublist second hmem)
  obtain ⟨later, hlater⟩ := heap.linearization_eq_cons first
  obtain ⟨rest, hrest⟩ := heap.linearization_eq_cons second
  rw [hlater, hrest] at hsame
  exact (List.cons.inj hsame).1

theorem isMostDerived_unique (hhierarchy : heap.Hierarchy) {candidates : Finset ClassRef}
    (hclasses : ∀ cls ∈ candidates, heap.HasClass cls) {first second : ClassRef}
    (hfirst : heap.IsMostDerived candidates first)
    (hsecond : heap.IsMostDerived candidates second) : first = second :=
  hhierarchy.isSubtype_antisymm (hclasses first hfirst.mem) (hfirst.isSubtype second hsecond.mem)
    (hsecond.isSubtype first hfirst.mem)

/-- What is found is the most derived candidate. -/
theorem mostDerivedMetaclass_eq_ok_iff (hhierarchy : heap.Hierarchy)
    (hclasses : ∀ cls ∈ heap.candidateSet start bases, heap.HasClass cls) :
    heap.mostDerivedMetaclass start bases = .ok winner ↔
      heap.IsMostDerived (heap.candidateSet start bases) winner := by
  refine ⟨isMostDerived_of_eq_ok, fun hwinner ↦ ?_⟩
  cases hfound : heap.mostDerivedMetaclass start bases with
  | ok found =>
    have hsame := hhierarchy.isMostDerived_unique hclasses (isMostDerived_of_eq_ok hfound) hwinner
    rw [hsame]
  | error fault => exact absurd ⟨winner, hwinner⟩ (not_isMostDerived_of_eq_error hfound).2

/-- Two searches agree when the same class is most derived among their candidates. -/
theorem mostDerivedMetaclass_congr (hhierarchy : heap.Hierarchy)
    (hclasses : ∀ cls ∈ heap.candidateSet start bases, heap.HasClass cls)
    (hsame : ∀ winner, heap.IsMostDerived (heap.candidateSet other others) winner ↔
      heap.IsMostDerived (heap.candidateSet start bases) winner) :
    heap.mostDerivedMetaclass other others = heap.mostDerivedMetaclass start bases := by
  cases hfound : heap.mostDerivedMetaclass other others with
  | ok winner =>
    have hwinner := (hsame winner).mp (isMostDerived_of_eq_ok hfound)
    exact ((hhierarchy.mostDerivedMetaclass_eq_ok_iff hclasses).mpr hwinner).symm
  | error fault =>
    obtain ⟨rfl, hnone⟩ := not_isMostDerived_of_eq_error hfound
    cases hstart : heap.mostDerivedMetaclass start bases with
    | ok winner => exact absurd ⟨winner, (hsame winner).mpr (isMostDerived_of_eq_ok hstart)⟩ hnone
    | error fault => rw [(not_isMostDerived_of_eq_error hstart).1]

/-- Among metaclasses `type` is no further candidate: it is above all of them, and it is most
derived only if it is one of them. -/
theorem isMostDerived_insert_type (hhierarchy : heap.Hierarchy) {candidates : Finset ClassRef}
    (hmetatypes : ∀ cls ∈ candidates, heap.isMetatype cls) (hnonempty : candidates.Nonempty) :
    heap.IsMostDerived (insert (.native .type) candidates) winner ↔
      heap.IsMostDerived candidates winner := by
  constructor
  · intro hwinner
    have hall : ∀ other ∈ candidates, heap.isSubtype winner other := fun other hother ↦
      hwinner.isSubtype other (Finset.mem_insert_of_mem hother)
    obtain rfl | hmem := Finset.mem_insert.mp hwinner.mem
    · obtain ⟨cls, hcls⟩ := hnonempty
      have hsame := hhierarchy.isSubtype_antisymm (hasClass_native .type) (hall cls hcls)
        (hmetatypes cls hcls)
      exact ⟨hsame ▸ hcls, hall⟩
    · exact ⟨hmem, hall⟩
  · intro hwinner
    refine ⟨Finset.mem_insert_of_mem hwinner.mem, fun other hother ↦ ?_⟩
    obtain rfl | hother := Finset.mem_insert.mp hother
    · exact hmetatypes winner hwinner.mem
    · exact hwinner.isSubtype other hother

end Hierarchy

end Metaobject.Heap
