import Metaobject.Proofs.ClassGraph.Lookup
import Metaobject.Proofs.Run.Reachable

/-!
# Lookup in reachable worlds

In every reachable world the raw search for a name on a class is the depth-first search through its
bases, whatever the namespaces of the classes hold (`Session.Reaches.lookup_depthFirst`). Where two
bases share an ancestor, the search comes to the ancestor before it comes to the second base.
-/

set_option autoImplicit false
set_option relaxedAutoImplicit false

namespace Metaobject.Session

/-- The search for a name on a class of a reachable world, in every heap with the classes of that
world. The search that goes through the linearization of the class and searches each class in it
anew, the search that goes through the bases, and the depth-first search are one. Native types and
exception classes among the bases are never hit, and the search finds nothing exactly when no class
of the whole linearization has the name in its own namespace. -/
theorem Reaches.lookup_depthFirst {configuration : Configuration} {world : World}
    (hreaches : Reaches configuration world) {cls : Address} {record : ClassRecord}
    (hrecord : world.heap.userClass? cls = some record) {heap : Heap}
    (hsame : world.heap.SameClasses heap) (name : String) :
    heap.lookup name (.user cls) = heap.ownOr name cls record.linearization ∧
      heap.lookup name (.user cls) = heap.ownOr name cls record.bases ∧
      (∀ base ∈ record.bases, (∀ older, base ≠ .user older) → heap.lookup name base = none) ∧
      heap.lookup name (.user cls) = heap.depthFirst name cls ∧
      (heap.lookup name (.user cls) = none ↔
        ∀ ancestor, .user ancestor ∈ heap.linearization (.user cls) →
          heap.ownAttribute? ancestor name = none) := by
  have hhierarchy := hreaches.wellFormed.hierarchy
  have hcls : world.heap.HasClass (.user cls) := Option.isSome_of_eq_some hrecord
  refine ⟨hhierarchy.lookupUser_eq hsame hrecord name,
    hhierarchy.lookupUser_eq_bases hsame hrecord name, ?_,
    hhierarchy.lookupUser_eq_depthFirst hsame hcls name, ?_⟩
  · intro base _ hforeign
    cases base with
    | native | exception => rfl
    | user older => exact absurd rfl (hforeign older)
  · rw [hsame.linearization]
    exact hhierarchy.lookup_eq_none_iff hsame hcls name

/-! ### An ancestor of two bases -/

namespace Shadowed

open Script

/-- Class `A` and `C` below it have the attribute, and `D` has the bases `B`, below `A`, and `C`. -/
def statements : List Statement :=
  [.assign .locals "A" (creation type "A" [] [("x", .literal (.int 1))]),
   .assign .locals "B" (creation type "B" [.variable "A"] []),
   .assign .locals "C" (creation type "C" [.variable "A"] [("x", .literal (.int 2))]),
   .assign .locals "D" (creation type "D" [.variable "B", .variable "C"] [])]

/-- The session after the four classes are created. -/
def session : Session := (start .scripted).after 2 statements

end Shadowed

/-- The class with two bases is searched depth first, and a name that no class has is not found. -/
theorem lookup_depthFirst_shadowed :
    Shadowed.session.world.heap.lookup "x" (.user 12) =
        Shadowed.session.world.heap.depthFirst "x" 12 ∧
      Shadowed.session.world.heap.lookup "y" (.user 12) = none := by
  have hreaches : Reaches .scripted Shadowed.session.world :=
    .rests (Rests.start.after 2 Shadowed.statements)
  have hclass : (Shadowed.session.world.heap.userClass? 12).isSome := by decide +kernel
  have horder : Shadowed.session.world.heap.linearization (.user 12) =
      [.user 12, .user 6, .user 9, .user 3, .native .object] := by decide +kernel
  obtain ⟨record, hrecord⟩ := Option.isSome_iff_exists.mp hclass
  obtain ⟨-, -, -, hfound, -⟩ := hreaches.lookup_depthFirst hrecord (.refl _) "x"
  obtain ⟨-, -, -, -, hnone⟩ := hreaches.lookup_depthFirst hrecord (.refl _) "y"
  refine ⟨hfound, hnone.mpr fun ancestor hancestor ↦ ?_⟩
  simp only [horder, List.mem_cons, ClassRef.user.injEq, reduceCtorEq, List.not_mem_nil,
    or_false] at hancestor
  obtain rfl | rfl | rfl | rfl := hancestor <;> decide +kernel

end Metaobject.Session
