import Metaobject.Proofs.ClassGraph.MostDerived
import Metaobject.Proofs.Session.Hierarchy

/-!
# Choosing a metaclass in reachable worlds

Which metaclass is chosen for a new class depends only on which classes are among the candidates,
whatever the order and repetition of the bases and whichever of the candidates the search starts
with (`Session.Reaches.metaclass_determined`).
-/

set_option autoImplicit false
set_option relaxedAutoImplicit false

namespace Metaobject.Session

/-- The choice of a metaclass in a reachable world, for any starting class and any values as bases.
It succeeds if and only if one candidate is a subtype of all, which is then the only such one and
the one chosen, and it is a metaclass conflict otherwise. So it is the same whenever the candidates
are the same classes, as for bases in another order or repeated, and what is chosen is chosen again
when the search starts with it. If all bases are classes, a search that starts with the type of the
first one agrees with one that starts with `type`; so no metaclass asked for and `type` asked for
are resolved alike. -/
theorem Reaches.metaclass_determined {configuration : Configuration} {world : World}
    (hreaches : Reaches configuration world) {start : ClassRef} {bases : List Value}
    (hstart : world.heap.HasClass start) (hbases : world.heap.HoldsAll bases) :
    let heap := world.heap
    let candidates := heap.candidateSet start bases
    (∀ winner, heap.mostDerivedMetaclass start bases = .ok winner ↔
        heap.IsMostDerived candidates winner) ∧
      (∀ first second, heap.IsMostDerived candidates first →
        heap.IsMostDerived candidates second → first = second) ∧
      ((¬∃ winner, heap.IsMostDerived candidates winner) →
        heap.mostDerivedMetaclass start bases = .error .metaclassConflict) ∧
      (∀ other others, heap.candidateSet other others = candidates →
        heap.mostDerivedMetaclass other others = heap.mostDerivedMetaclass start bases) ∧
      (∀ others : List Value, (∀ value, value ∈ others ↔ value ∈ bases) →
        heap.mostDerivedMetaclass start others = heap.mostDerivedMetaclass start bases) ∧
      (∀ winner, heap.mostDerivedMetaclass start bases = .ok winner →
        heap.mostDerivedMetaclass winner bases = .ok winner) ∧
      ((∀ base ∈ bases, base.class?.isSome) →
        (∀ base, bases.head? = some base → heap.mostDerivedMetaclass (heap.typeOf base) bases =
          heap.mostDerivedMetaclass (.native .type) bases) ∧
        BuildClass.resolve heap none bases =
          BuildClass.resolve heap (some (.builtin (.type .type))) bases) := by
  intro heap candidates
  have hformed : heap.WellFormed := hreaches.wellFormed
  have hhierarchy := hformed.hierarchy
  have hclasses : ∀ {other : ClassRef}, heap.HasClass other →
      ∀ cls ∈ heap.candidateSet other bases, heap.HasClass cls := by
    intro other hother cls hcls
    obtain rfl | ⟨base, hbase, rfl⟩ := Heap.mem_candidateSet.mp hcls
    · exact hother
    · exact hformed.hasClass_typeOf (hbases base hbase)
  have hagree : ∀ other others, heap.candidateSet other others = candidates →
      heap.mostDerivedMetaclass other others = heap.mostDerivedMetaclass start bases :=
    fun other others hsame ↦
      hhierarchy.mostDerivedMetaclass_congr (hclasses hstart) fun winner ↦ by rw [hsame]
  refine ⟨fun winner ↦ hhierarchy.mostDerivedMetaclass_eq_ok_iff (hclasses hstart),
    fun first second ↦ hhierarchy.isMostDerived_unique (hclasses hstart), fun hnone ↦ ?_, hagree,
    fun others hsame ↦ hagree start others (heap.candidateSet_congr start hsame),
    fun winner hwinner ↦ ?_, fun hbaseClasses ↦ ?_⟩
  · cases hfound : heap.mostDerivedMetaclass start bases with
    | ok winner => exact absurd ⟨winner, Heap.isMostDerived_of_eq_ok hfound⟩ hnone
    | error fault => rw [(Heap.not_isMostDerived_of_eq_error hfound).1]
  · have hchosen := Heap.isMostDerived_of_eq_ok hwinner
    exact Heap.mostDerivedMetaclass_start
      (hhierarchy.isSubtype_refl (hclasses hstart winner hchosen.mem))
      fun base hbase ↦ Heap.isSubtype_of_mostDerived hwinner hbase
  · have hmetatype : ∀ base ∈ bases, heap.isMetatype (heap.typeOf base) := by
      intro base hbase
      obtain ⟨cls, hcls⟩ := Option.isSome_iff_exists.mp (hbaseClasses base hbase)
      rw [heap.typeOf_eq_metaclassOf hcls]
      exact hhierarchy.metaclassOf_isMetatype cls
    have hfirst : ∀ base, bases.head? = some base →
        heap.mostDerivedMetaclass (heap.typeOf base) bases =
          heap.mostDerivedMetaclass (.native .type) bases := by
      intro base hhead
      have hbase := List.mem_of_head? hhead
      refine hhierarchy.mostDerivedMetaclass_congr (hclasses (Heap.hasClass_native .type))
        fun winner ↦ ?_
      rw [heap.candidateSet_typeOf_head hbase]
      refine (hhierarchy.isMostDerived_insert_type (fun cls hcls ↦ ?_)
        ⟨_, Finset.mem_insert_self _ _⟩).symm
      obtain rfl | ⟨other, hother, rfl⟩ := Heap.mem_candidateSet.mp hcls
      · exact hmetatype base hbase
      · exact hmetatype other hother
    refine ⟨hfirst, ?_⟩
    cases hhead : bases.head? with
    | none =>
      obtain rfl := List.head?_eq_none_iff.mp hhead
      rfl
    | some base =>
      have hresolve : BuildClass.resolve heap none bases =
          (heap.mostDerivedMetaclass (heap.typeOf base) bases).map ClassRef.toValue := by
        simp only [BuildClass.resolve, hhead, Option.map_some, Option.getD_some]
      rw [hresolve, hfirst base hhead]
      rfl

/-! ### Two metaclasses and one below both -/

namespace Rivals

open Script

/-- A class without attributes, under its name. -/
def create (metaclass : Expression) (name : String) (bases : List Expression) : Statement :=
  .assign .locals name (creation metaclass name bases [])

/-- Metaclasses `M`, `N` and `P` below both, and a class of each: `A`, `B` and `C`. -/
def statements : List Statement :=
  [create type "M" [type],
   create type "N" [type],
   create type "P" [.variable "M", .variable "N"],
   create (.variable "M") "A" [], create (.variable "N") "B" [], create (.variable "P") "C" []]

/-- The session after the six classes are created. -/
def session : Session := (start .scripted).after 2 statements

end Rivals

/-- The lower metaclass is chosen for the three classes, in whatever order and however often they
are given, and also when it is asked for. Without the class of the lower one no candidate is below
all. -/
theorem metaclass_determined_rivals :
    Rivals.session.world.heap.mostDerivedMetaclass (.native .type)
        [.userClass 18, .userClass 15, .userClass 12, .userClass 15] = .ok (.user 9) ∧
      Rivals.session.world.heap.mostDerivedMetaclass (.user 9)
        [.userClass 12, .userClass 15, .userClass 18] = .ok (.user 9) ∧
      BuildClass.resolve Rivals.session.world.heap none
        [.userClass 12, .userClass 15, .userClass 18] = .ok (.userClass 9) ∧
      ¬∃ winner, Rivals.session.world.heap.IsMostDerived
        (Rivals.session.world.heap.candidateSet (.native .type) [.userClass 12, .userClass 15])
        winner := by
  have hreaches : Reaches .scripted Rivals.session.world :=
    .rests (Rests.start.after 2 Rivals.statements)
  have hheld : Rivals.session.world.heap.HoldsAll
      [.userClass 12, .userClass 15, .userClass 18] := by
    have hclasses : ∀ address ∈ [12, 15, 18],
        (Rivals.session.world.heap.userClass? address).isSome := by with_unfolding_all decide
    simpa [Heap.HoldsAll] using hclasses
  have hfound : Rivals.session.world.heap.mostDerivedMetaclass (.native .type)
      [.userClass 12, .userClass 15, .userClass 18] = .ok (.user 9) := by with_unfolding_all rfl
  have hconflict : Rivals.session.world.heap.mostDerivedMetaclass (.native .type)
      [.userClass 12, .userClass 15] = .error .metaclassConflict := by with_unfolding_all rfl
  have htype : Rivals.session.world.heap.HasClass (.native .type) := trivial
  have hpairHeld : Rivals.session.world.heap.HoldsAll [.userClass 12, .userClass 15] :=
    fun base hbase ↦ hheld base (List.mem_append_left [Value.userClass 18] hbase)
  obtain ⟨-, -, -, -, hreordered, hagain, hclasses⟩ :=
    hreaches.metaclass_determined htype hheld
  obtain ⟨hpair, -⟩ := hreaches.metaclass_determined htype hpairHeld
  refine ⟨(hreordered _ fun value ↦ ?_).trans hfound, hagain _ hfound,
    (hclasses (by decide)).2.trans ?_, ?_⟩
  · simp only [List.mem_cons, List.not_mem_nil, or_false]
    tauto
  · exact congrArg (Except.map ClassRef.toValue) hfound
  · rintro ⟨winner, hwinner⟩
    have hchosen := (hpair winner).mpr hwinner
    rw [hconflict] at hchosen
    cases hchosen

end Metaobject.Session
