import Metaobject.Proofs.Run.Reachable

/-!
# Classes in reachable worlds

However a class came to be, its stored linearization is in order: in every reachable world the
ancestors of every class are older than it, without repetition, with `object` last, and in an order
that the bases and the linearizations of all ancestors agree with
(`Session.Reaches.class_hierarchy`).
-/

set_option autoImplicit false
set_option relaxedAutoImplicit false

namespace Metaobject

namespace Session

/-- The hierarchy of classes over whole runs. The stored linearization of a class leaves out the
class itself; it has at most a thousand entries, all of which were there before the class, and ends
with `object`. The bases stand in it in their order, and so does the whole linearization of every
class that it holds, not only of the bases. -/
theorem Reaches.class_hierarchy {configuration : Configuration} {world : World}
    (hreaches : Reaches configuration world) {cls : Address} {record : ClassRecord}
    (hrecord : world.heap.userClass? cls = some record) :
    record.linearization.Nodup ∧ .user cls ∉ record.linearization ∧
      record.linearization.length ≤ 1000 ∧
      record.linearization.getLast? = some (.native .object) ∧
      (∀ older, .user older ∈ record.linearization →
        older < cls ∧ (world.heap.userClass? older).isSome) ∧
      record.bases.Sublist record.linearization ∧
      ∀ ancestor ∈ record.linearization,
        (world.heap.linearization ancestor).Sublist record.linearization := by
  have hhierarchy := hreaches.wellFormed.hierarchy
  have hancestry := hhierarchy.ancestry hrecord
  have holder : ∀ older, .user older ∈ record.linearization → older < cls := fun older hmem ↦
    hhierarchy.isOlder_ancestor hrecord hmem
  refine ⟨hancestry.nodup, fun hself ↦ Nat.lt_irrefl cls (holder cls hself),
    hancestry.length_le, hancestry.getLast?_eq, fun older hmem ↦ ⟨holder older hmem, ?_⟩,
    hancestry.bases_sublist, hancestry.sublist⟩
  have hlinear := hhierarchy.linear_user (Option.isSome_of_eq_some hrecord)
  refine hlinear.hasClass (.user older) ?_
  rw [Heap.linearization_user hrecord]
  exact List.mem_cons_of_mem _ hmem

/-! ### A diamond of classes -/

namespace Diamond

open Script

/-- Classes `A`, `B` below `A`, `C` below `A` and an exception class, and `D` below `B` and `C`. -/
def statements : List Statement :=
  [.assign .locals "A" (creation type "A" [] []),
   .assign .locals "B" (creation type "B" [.variable "A"] []),
   .assign .locals "C"
     (creation type "C" [.variable "A", .literal (.exceptionClass .valueError)] []),
   .evaluate (creation type "D" [.variable "B", .variable "C"] [])]

/-- The session after the four classes are created. -/
def session : Session := (start .scripted).after 2 statements

end Diamond

/-- The last class of the diamond, whose two bases and one of whose ancestors keep their orders. -/
theorem class_hierarchy_diamond :
    ∃ record, Diamond.session.world.heap.userClass? 12 = some record ∧
      record.linearization.Nodup ∧ record.bases.Sublist record.linearization ∧
      (Diamond.session.world.heap.linearization (.user 9)).Sublist record.linearization := by
  have hreaches : Reaches .scripted Diamond.session.world :=
    .rests (Rests.start.after 2 Diamond.statements)
  have hclass : (Diamond.session.world.heap.userClass? 12).isSome := by decide +kernel
  have hmem : .user 9 ∈ Diamond.session.world.heap.storedLinearization 12 := by decide +kernel
  obtain ⟨record, hrecord⟩ := Option.isSome_iff_exists.mp hclass
  rw [Heap.storedLinearization, hrecord] at hmem
  obtain ⟨hnodup, -, -, -, -, hbases, hancestors⟩ := hreaches.class_hierarchy hrecord
  exact ⟨record, hrecord, hnodup, hbases, hancestors (.user 9) hmem⟩

end Session

end Metaobject
