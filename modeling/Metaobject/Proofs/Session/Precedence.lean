import Metaobject.Proofs.ClassGraph.Precedence
import Metaobject.Proofs.Session.Lookup

/-!
# Overriding in reachable worlds

In every reachable world the raw search gives what the class on which it comes to rest has in its
own namespace, and this class is the first one of the linearization that has the name exactly if it
is below the first one (`Session.Reaches.lookup_precedence`). Where it is not, the search passes
over a class that overrides the name, and so does everything that goes by the search, such as
`getattr` (`Session.lookup_overridden`).
-/

set_option autoImplicit false
set_option relaxedAutoImplicit false

namespace Metaobject.Session

/-- The search for a name on a class of a reachable world against the order of its linearization, in
every heap with the classes of that world. The search gives the entry of the class on which it comes
to rest, and comes to rest exactly if some class of the linearization has the name. The class on
which it comes to rest is the first one that has the name if and only if the first one stands in its
linearization. In particular the search gives the entry of the first class of the linearization that
has the name, or nothing if there is none, wherever no class has two bases that know the name. -/
theorem Reaches.lookup_precedence {configuration : Configuration} {world : World}
    (hreaches : Reaches configuration world) {cls : Address}
    (hcls : (world.heap.userClass? cls).isSome) {heap : Heap}
    (hsame : world.heap.SameClasses heap) (name : String) :
    (heap.lookup name (.user cls) =
        (heap.foundOn name cls).bind fun found ↦ heap.ownAttribute? found name) ∧
      (heap.foundOn name cls = none ↔ heap.firstHolder name cls = none) ∧
      (∀ found first, heap.foundOn name cls = some found →
        heap.firstHolder name cls = some first →
          (found = first ↔ .user first ∈ heap.linearization (.user found))) ∧
      ((∀ ancestor, .user ancestor ∈ heap.linearization (.user cls) →
          ∀ base ∈ heap.bases ancestor, ∀ other ∈ heap.bases ancestor,
            heap.lookup name base ≠ none → heap.lookup name other ≠ none → base = other) →
        heap.lookup name (.user cls) =
          (heap.firstHolder name cls).bind fun first ↦ heap.ownAttribute? first name) := by
  have hhierarchy := hreaches.wellFormed.hierarchy
  have hlookup := hhierarchy.lookupUser_eq_foundOn hsame hcls name
  refine ⟨hlookup, hhierarchy.foundOn_eq_none_iff hsame hcls name, ?_, fun hunique ↦ ?_⟩
  · intro found first hfound hfirst
    rw [hsame.linearization]
    exact hhierarchy.foundOn_eq_firstHolder_iff hsame hcls hfound hfirst
  · refine hlookup.trans (congrArg (Option.bind · _) ?_)
    refine hhierarchy.foundOn_eq_firstHolder hsame hcls fun ancestor hancestor ↦ ?_
    rw [hsame.linearization] at hunique
    have hbases : heap.bases ancestor = world.heap.bases ancestor := by
      rw [Heap.bases, Heap.bases, hsame ancestor]
    exact hbases ▸ hunique ancestor hancestor

/-! ### A class that overrides an ancestor -/

namespace Shadowed

open Script

/-- A call of `getattr` with `D`. -/
def getAttribute : Statement :=
  .evaluate (.callBuiltin "getattr" [.variable "D", .literal (.text "x")] .absent)

end Shadowed

/-- For the class with one base the search gives the entry of the first holder. For the class with
two bases it comes to rest on the ancestor, which is not below the first holder. -/
theorem lookup_precedence_overridden :
    Shadowed.session.world.heap.lookup "x" (.user 6) =
        (Shadowed.session.world.heap.firstHolder "x" 6).bind
          (Shadowed.session.world.heap.ownAttribute? · "x") ∧
      Shadowed.session.world.heap.foundOn "x" 12 = some 3 ∧
      .user 9 ∉ Shadowed.session.world.heap.linearization (.user 3) := by
  have hreaches : Reaches .scripted Shadowed.session.world :=
    .rests (Rests.start.after 2 Shadowed.statements)
  have hfound : Shadowed.session.world.heap.foundOn "x" 12 = some 3 := by
    with_unfolding_all decide
  have hfirst : Shadowed.session.world.heap.firstHolder "x" 12 = some 9 := by
    with_unfolding_all decide
  have hsingle : (Shadowed.session.world.heap.userClass? 6).isSome := rfl
  have hdouble : (Shadowed.session.world.heap.userClass? 12).isSome := rfl
  have horder : Shadowed.session.world.heap.linearization (.user 6) =
      [.user 6, .user 3, .native .object] := by with_unfolding_all decide
  have hbases : ∀ ancestor ∈ [6, 3], ∀ base ∈ Shadowed.session.world.heap.bases ancestor,
      ∀ other ∈ Shadowed.session.world.heap.bases ancestor, base = other := by
    with_unfolding_all decide
  obtain ⟨-, -, -, hlaw⟩ := hreaches.lookup_precedence hsingle (.refl _) "x"
  obtain ⟨-, -, hpassed, -⟩ := hreaches.lookup_precedence hdouble (.refl _) "x"
  refine ⟨hlaw fun ancestor hancestor base hbase other hother _ _ ↦ ?_, hfound, fun hmem ↦ ?_⟩
  · have hmem : ancestor ∈ [6, 3] := by simpa [horder] using hancestor
    exact hbases ancestor hmem base hbase other hother
  · exact absurd ((hpassed 3 9 hfound hfirst).mpr hmem) (by decide)

/-- A class that comes before an ancestor in the linearization is passed over: the first class of
the linearization that has the attribute is `C`, with two, and both the search and `getattr` give
the one of `A`. -/
theorem lookup_overridden :
    Reaches .scripted Shadowed.session.world ∧
      Shadowed.session.world.heap.linearization (.user 12) =
        [.user 12, .user 6, .user 9, .user 3, .native .object] ∧
      Shadowed.session.world.heap.ownAttribute? 12 "x" = none ∧
      Shadowed.session.world.heap.ownAttribute? 6 "x" = none ∧
      Shadowed.session.world.heap.ownAttribute? 9 "x" = some (.int 2) ∧
      Shadowed.session.world.heap.lookup "x" (.user 12) = some (.int 1) ∧
      (Shadowed.session.stepWithin 2 Shadowed.getAttribute).1 = .value (.int 1) := by
  exact ⟨.rests (Rests.start.after 2 Shadowed.statements), by with_unfolding_all decide, rfl, rfl,
    rfl, by with_unfolding_all rfl, by with_unfolding_all rfl⟩

end Metaobject.Session
