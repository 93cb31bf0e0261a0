import Metaobject.Proofs.ClassGraph.Completeness
import Metaobject.Proofs.Session.Hierarchy

/-!
# Linearizing in reachable worlds

Whatever classes a script has created, their linearization is found whenever there is one
(`Session.Reaches.linearize_complete`): bases are refused only if they cannot be bases, are
repeated, admit no order or have too many ancestors.
-/

set_option autoImplicit false
set_option relaxedAutoImplicit false

namespace Metaobject.Session

/-- Linearizing is sound and complete, for any bases among the classes of a reachable world. It
succeeds if and only if no native type among the bases but `object` and `type`, no base twice, an
order of all ancestors that agrees with the bases and with the linearization of each of them, and at
most a thousand ancestors; without bases it is as if `object` were the only one. What it gives is
such an order and ends with `object`, and in all other cases it gives a type error. The merge behind
it also ends by itself: with room for all ancestors it is never cut off. -/
theorem Reaches.linearize_complete {configuration : Configuration} {world : World}
    (hreaches : Reaches configuration world) {bases : List ClassRef}
    (hbases : ∀ base ∈ bases, world.heap.HasClass base) :
    ((∃ order, world.heap.linearize bases = .ok order) ↔
        (∀ kind, .native kind ∈ Heap.impliedBases bases → kind = .object ∨ kind = .type) ∧
          (Heap.impliedBases bases).Nodup ∧
          (∃ order, world.heap.Linearizes (Heap.impliedBases bases) order) ∧
          (world.heap.ancestorsOf (Heap.impliedBases bases)).card ≤ 1000) ∧
      (∀ order, world.heap.linearize bases = .ok order →
        world.heap.Linearizes (Heap.impliedBases bases) order ∧
          order.getLast? = some (.native .object)) ∧
      (¬ (∃ order, world.heap.linearize bases = .ok order) →
        ∃ fault, world.heap.linearize bases = .error fault ∧ fault.cls = .typeError) ∧
      ∀ room, (world.heap.ancestorsOf bases).card ≤ room →
        ClassGraph.merge room (world.heap.basisLists bases) ≠ .error .tooLong := by
  have hhierarchy := hreaches.wellFormed.hierarchy
  have hlinear : ∀ base ∈ bases, world.heap.Linear base := fun base hbase ↦
    hhierarchy.linear (hbases base hbase)
  refine ⟨Heap.exists_linearize_iff, fun order horder ↦ ?_, fun hrefused ↦ ?_, fun room hroom ↦ ?_⟩
  · exact ⟨Heap.linearizes_of_linearize horder,
      (Heap.ancestry_of_linearize hlinear horder).getLast?_eq⟩
  · cases hlinearize : world.heap.linearize bases with
    | ok order => exact absurd ⟨order, hlinearize⟩ hrefused
    | error fault => exact ⟨fault, rfl, Heap.cls_of_linearize hlinearize⟩
  · rw [← Heap.toFinset_basisLists] at hroom
    exact ClassGraph.merge_ne_tooLong hroom

/-- In the diamond, the bases of the last class have a linearization. The first class in front of
one that is below it has none, so no order of their ancestors agrees with both. -/
theorem linearize_complete_diamond :
    (∃ order, Diamond.session.world.heap.Linearizes [.user 6, .user 9] order) ∧
      ¬ ∃ order, Diamond.session.world.heap.Linearizes [.user 3, .user 6] order := by
  have hreaches : Reaches .scripted Diamond.session.world :=
    .rests (Rests.start.after 2 Diamond.statements)
  have hclasses : ∀ address ∈ [3, 6, 9],
      (Diamond.session.world.heap.userClass? address).isSome := by with_unfolding_all decide
  have hsides : ∀ base ∈ [ClassRef.user 6, .user 9],
      Diamond.session.world.heap.HasClass base := by
    intro base hbase
    rcases List.mem_pair.mp hbase with rfl | rfl
    · exact hclasses 6 (by decide)
    · exact hclasses 9 (by decide)
  have hcrossed : ∀ base ∈ [ClassRef.user 3, .user 6],
      Diamond.session.world.heap.HasClass base := by
    intro base hbase
    rcases List.mem_pair.mp hbase with rfl | rfl
    · exact hclasses 3 (by decide)
    · exact hclasses 6 (by decide)
  refine ⟨?_, fun horder ↦ ?_⟩
  · have hfound : Diamond.session.world.heap.linearize [.user 6, .user 9] =
        .ok (.user 6 :: .user 9 :: .user 3 ::
          Diamond.session.world.heap.linearization (.exception .valueError)) := by
      with_unfolding_all decide
    exact ((hreaches.linearize_complete hsides).1.mp ⟨_, hfound⟩).2.2.1
  · have hfew : (Diamond.session.world.heap.ancestorsOf [.user 3, .user 6]).card ≤ 1000 := by
      with_unfolding_all decide
    obtain ⟨order, hlinearize⟩ := (hreaches.linearize_complete hcrossed).1.mpr
      ⟨by simp [Heap.impliedBases], by decide, horder, hfew⟩
    have hrefused : ¬ (Diamond.session.world.heap.linearize [.user 3, .user 6]).isOk := by
      with_unfolding_all decide
    exact hrefused (by rw [hlinearize]; rfl)

end Metaobject.Session
