import Metaobject.ClassGraph.Lookup
import Metaobject.Proofs.ClassGraph.Hierarchy

/-!
# Looking up through the bases

The raw search goes through the stored linearization of a class and searches every class in it with
its own whole linearization. In a hierarchy this comes to the search through the bases from left to
right, each base with all that is above it before the next one (`Heap.depthFirst`,
`Hierarchy.lookupUser_eq_depthFirst`). The reason is that a class of a linearization that no base
before it covers is itself a base, so what is hit first in the linearization is a base
(`Hierarchy.mem_bases_of_first_hit`).

The search finds nothing exactly when no class of the linearization has the name
(`Hierarchy.lookup_eq_none_iff`). All of this is a matter of the classes alone: it holds for every
heap with the same classes, whatever is in their namespaces (`Heap.SameClasses`).
-/

set_option autoImplicit false
set_option relaxedAutoImplicit false

namespace Metaobject

theorem findSome?_congr {Item Found : Type} {search other : Item → Option Found}
    {items : List Item} (hsame : ∀ item ∈ items, search item = other item) :
    items.findSome? search = items.findSome? other := by
  induction items with
  | nil => rfl
  | cons item items ih =>
    obtain ⟨hitem, hsame⟩ := List.forall_mem_cons.mp hsame
    rw [List.findSome?_cons, List.findSome?_cons, hitem, ih hsame]

/-- A part of an order that holds the first hit in the order has the same first hit. -/
theorem findSome?_eq_of_sublist {Item Found : Type} {search : Item → Option Found}
    {part order : List Item} (hsublist : part.Sublist order) (hnodup : order.Nodup)
    (hfirst : ∀ before item after, order = before ++ item :: after →
      (∀ earlier ∈ before, search earlier = none) → search item ≠ none → item ∈ part) :
    order.findSome? search = part.findSome? search := by
  induction hsublist with
  | slnil => rfl
  | @cons part order item hrest ih =>
    obtain ⟨hnew, hnodup⟩ := List.nodup_cons.mp hnodup
    have hitem : search item = none := by
      by_contra hhit
      have hmem := hfirst [] item order rfl (fun _ hearlier ↦ absurd hearlier List.not_mem_nil) hhit
      exact hnew (hrest.subset hmem)
    rw [List.findSome?_cons, hitem]
    refine ih hnodup fun before other after horder hbefore hhit ↦ ?_
    refine hfirst (item :: before) other after (by rw [horder, List.cons_append]) ?_ hhit
    exact List.forall_mem_cons.mpr ⟨hitem, hbefore⟩
  | @cons_cons part order item hrest ih =>
    have hnodup := (List.nodup_cons.mp hnodup).2
    rw [List.findSome?_cons, List.findSome?_cons]
    cases hitem : search item with
    | some found => rfl
    | none =>
      refine ih hnodup fun before other after horder hbefore hhit ↦ ?_
      have hmem := hfirst (item :: before) other after (by rw [horder, List.cons_append])
        (List.forall_mem_cons.mpr ⟨hitem, hbefore⟩) hhit
      rcases List.mem_cons.mp hmem with rfl | hpart
      · exact absurd hitem hhit
      · exact hpart

namespace Heap

/-- A linearization begins with the class. -/
theorem linearization_eq_cons (heap : Heap) (cls : ClassRef) :
    ∃ rest, heap.linearization cls = cls :: rest := by
  cases cls with
  | native kind => cases kind <;> exact ⟨_, rfl⟩
  | exception cls =>
    rw [Heap.linearization, cls.ancestors_eq]
    split <;> exact ⟨_, rfl⟩
  | user address => exact ⟨_, rfl⟩

/-! ### The search through the bases -/

/-- The direct bases of a class built at run time. -/
def bases (heap : Heap) (address : Address) : List ClassRef :=
  match heap.userClass? address with
  | some record => record.bases
  | none => []

/-- The search for a name on a class built at run time that goes through its bases: the namespace of
the class itself, and then each base from left to right with all that is above it. The bases are
older than the class. -/
def depthFirst (heap : Heap) (name : String) (address : Address) : Option Value :=
  (heap.ownAttribute? address name).orElse fun _ ↦
    (heap.bases address).findSome? fun
      | .user older => if older < address then heap.depthFirst name older else none
      | _ => none
termination_by address

/-- Whether two heaps have the same classes. The contents of all dicts may differ. -/
def SameClasses (heap other : Heap) : Prop :=
  ∀ address, other.userClass? address = heap.userClass? address

/-- What a class built at run time is looked up by: its own namespace, and then what is found on
other classes. -/
def ownOr (heap : Heap) (name : String) (address : Address) (classes : List ClassRef) :
    Option Value :=
  (heap.ownAttribute? address name).orElse fun _ ↦ classes.findSome? (heap.lookup name)

namespace SameClasses

variable {heap other : Heap}

theorem refl (heap : Heap) : heap.SameClasses heap := fun _ ↦ rfl

theorem linearization (hsame : heap.SameClasses other) (cls : ClassRef) :
    other.linearization cls = heap.linearization cls := by
  cases cls with
  | native | exception => rfl
  | user address => simp only [Heap.linearization, storedLinearization, hsame address]

end SameClasses

namespace Hierarchy

variable {shape heap : Heap}

/-! ### What the search goes through -/

section

variable (hhierarchy : shape.Hierarchy) (hsame : shape.SameClasses heap)

include hhierarchy hsame

/-- The search on a class: its own namespace, and then the classes of its stored linearization in
turn, all of which are old enough to be searched. -/
theorem lookupUser_eq {address : Address} {record : ClassRecord}
    (hrecord : shape.userClass? address = some record) (name : String) :
    heap.lookupUser name address = heap.ownOr name address record.linearization := by
  have hstored : heap.storedLinearization address = record.linearization := by
    rw [storedLinearization, hsame address, hrecord]
  rw [lookupUser, ownOr, hstored]
  refine congrArg _ (funext fun _ ↦ findSome?_congr ?_)
  intro cls hcls
  cases cls with
  | native | exception => rfl
  | user older => exact if_pos (hhierarchy.isOlder_ancestor hrecord hcls)

/-- The search finds nothing exactly when no class of the linearization has the name itself. -/
theorem lookup_eq_none_iff {cls : ClassRef} (hcls : shape.HasClass cls) (name : String) :
    heap.lookup name cls = none ↔
      ∀ ancestor, .user ancestor ∈ shape.linearization cls →
        heap.ownAttribute? ancestor name = none := by
  cases cls with
  | native kind => simp [lookup, Heap.linearization]
  | exception cls => simp [lookup, Heap.linearization]
  | user address =>
    induction address using Nat.strongRecOn with
    | ind address ih =>
      obtain ⟨record, hrecord⟩ := Option.isSome_iff_exists.mp hcls
      have hlinear := hhierarchy.linear_user hcls
      have hancestry := hhierarchy.ancestry hrecord
      have hwhole := linearization_user hrecord
      have holder : ∀ older, .user older ∈ record.linearization →
          (heap.lookup name (.user older) = none ↔
            ∀ ancestor, .user ancestor ∈ shape.linearization (.user older) →
              heap.ownAttribute? ancestor name = none) := by
        intro older hmem
        have hhas := hlinear.hasClass (.user older) (hwhole ▸ List.mem_cons_of_mem _ hmem)
        exact ih older (hhierarchy.isOlder_ancestor hrecord hmem) hhas
      rw [lookup, lookupUser_eq hhierarchy hsame hrecord, ownOr, Option.orElse_eq_or,
        Option.or_eq_none_iff, List.findSome?_eq_none_iff, hwhole]
      constructor
      · rintro ⟨hown, hnone⟩ ancestor hancestor
        rcases List.mem_cons.mp hancestor with hself | habove
        · obtain rfl := ClassRef.user.inj hself
          exact hown
        · exact (holder ancestor habove).mp (hnone _ habove) ancestor
            (mem_linearization_self shape _)
      · intro hall
        refine ⟨hall address List.mem_cons_self, fun ancestor habove ↦ ?_⟩
        cases ancestor with
        | native | exception => rfl
        | user older =>
          refine (holder older habove).mpr fun ancestor hancestor ↦ hall ancestor ?_
          exact List.mem_cons_of_mem _ ((hancestry.sublist _ habove).subset hancestor)

/-- What is not found on a class is not found on its ancestors. -/
theorem lookup_ancestor_eq_none {cls ancestor : ClassRef} (hcls : shape.HasClass cls)
    (hancestor : ancestor ∈ shape.linearization cls) {name : String}
    (hnone : heap.lookup name cls = none) : heap.lookup name ancestor = none := by
  have hlinear := hhierarchy.linear hcls
  rw [lookup_eq_none_iff hhierarchy hsame (hlinear.hasClass ancestor hancestor)]
  intro other hother
  exact (lookup_eq_none_iff hhierarchy hsame hcls name).mp hnone other
    ((hlinear.sublist ancestor hancestor).subset hother)

/-- The class of a linearization that is hit first is a base: a base covers it, which stands before
it in the linearization and is not hit before it. -/
theorem mem_bases_of_first_hit {address : Address} {record : ClassRecord}
    (hrecord : shape.userClass? address = some record) {name : String}
    {before after : List ClassRef} {cls : ClassRef}
    (horder : record.linearization = before ++ cls :: after)
    (hbefore : ∀ earlier ∈ before, heap.lookup name earlier = none)
    (hhit : heap.lookup name cls ≠ none) : cls ∈ record.bases := by
  have hancestry := hhierarchy.ancestry hrecord
  have hmem : cls ∈ record.linearization := horder ▸ by simp
  obtain rfl | ⟨base, hbase, hcovered⟩ := hancestry.comes_from cls hmem
  · exact absurd rfl hhit
  have hhas := (hhierarchy address record hrecord).hasClass_base hbase
  have hsublist := hancestry.sublist base (hancestry.bases_sublist.subset hbase)
  obtain ⟨rest, hrest⟩ := linearization_eq_cons shape base
  have hnodup : (cls :: after).Nodup := (List.nodup_append.mp (horder ▸ hancestry.nodup)).2.1
  rw [horder] at hsublist
  obtain ⟨front, back, hsplit, hfront, hback⟩ := List.sublist_append_iff.mp hsublist
  cases front with
  | nil =>
    have hwhole : shape.linearization base = back := hsplit
    rw [← hwhole, hrest] at hback
    rw [hrest] at hcovered
    exact head_eq_of_sublist hback hnodup hcovered ▸ hbase
  | cons first front =>
    have hfirst : base = first := by
      rw [hrest] at hsplit
      exact (List.cons.inj hsplit).1
    have hearlier := hbefore base (hfront.subset (hfirst ▸ List.mem_cons_self))
    exact absurd (lookup_ancestor_eq_none hhierarchy hsame hhas hcovered hearlier) hhit

/-! ### Both searches are one -/

/-- The search on a class is the one that goes through its bases only. -/
theorem lookupUser_eq_bases {address : Address} {record : ClassRecord}
    (hrecord : shape.userClass? address = some record) (name : String) :
    heap.lookupUser name address = heap.ownOr name address record.bases := by
  have hancestry := hhierarchy.ancestry hrecord
  rw [lookupUser_eq hhierarchy hsame hrecord, ownOr, ownOr]
  have hsearch : record.linearization.findSome? (heap.lookup name) =
      record.bases.findSome? (heap.lookup name) :=
    findSome?_eq_of_sublist hancestry.bases_sublist hancestry.nodup
      fun before cls after ↦ mem_bases_of_first_hit hhierarchy hsame hrecord
  rw [hsearch]

/-- The raw search is the depth-first search through the bases. -/
theorem lookupUser_eq_depthFirst {address : Address} (hcls : (shape.userClass? address).isSome)
    (name : String) : heap.lookupUser name address = heap.depthFirst name address := by
  induction address using Nat.strongRecOn with
  | ind address ih =>
    obtain ⟨record, hrecord⟩ := Option.isSome_iff_exists.mp hcls
    have hgrounded := hhierarchy address record hrecord
    have hbases : heap.bases address = record.bases := by
      rw [bases, hsame address, hrecord]
    rw [lookupUser_eq_bases hhierarchy hsame hrecord, ownOr, depthFirst, hbases]
    refine congrArg _ (funext fun _ ↦ findSome?_congr ?_)
    intro base hbase
    cases base with
    | native | exception => rfl
    | user older =>
      obtain ⟨hless, hhas⟩ := hgrounded.base_older older hbase
      rw [lookup, ih older hless hhas]
      exact (if_pos hless).symm

end

end Hierarchy

end Heap

end Metaobject
