import Mathlib.Data.Finset.Dedup
import Mathlib.Data.Finset.Card
import Metaobject.Proofs.ClassGraph.Hierarchy

/-!
# When a merge exists

A merge that succeeds is an order of the items of the lists that agrees with each list (`Orders`,
`Merges.orders`). Conversely, where there is any such order, no step of the merge is stuck: the
first item of the order is a good head (`Orders.exists_goodHead`), and the order without the head
that a step takes is an order of what the step leaves (`Orders.of_goodHead`). So a merge with enough
room finds an order exactly if there is one (`exists_merge_iff`), and room for every item is always
enough (`merge_ne_tooLong`).

For bases such an order is one of the classes that they inherit from (`Heap.Linearizes`), and
linearizing the bases fails only for want of acceptable and distinct bases, of an order, or of room
(`Heap.exists_linearize_iff`).
-/

set_option autoImplicit false
set_option relaxedAutoImplicit false

namespace Metaobject

namespace ClassGraph

variable {Item : Type}

/-- An order of the items of some lists, without repetition, that agrees with each of the lists. -/
structure Orders (lists : List (List Item)) (order : List Item) : Prop where
  nodup : order.Nodup
  mem_iff : ∀ item, item ∈ order ↔ ∃ list ∈ lists, item ∈ list
  sublist : ∀ list ∈ lists, list.Sublist order

namespace Orders

variable {lists : List (List Item)} {order : List Item}

theorem nodup_list (horders : Orders lists order) {list : List Item} (hlist : list ∈ lists) :
    list.Nodup :=
  (horders.sublist list hlist).nodup horders.nodup

/-- Empty lists do not matter to an order. -/
theorem of_pending (horders : Orders lists order) : Orders (pending lists) order where
  nodup := horders.nodup
  mem_iff item := by
    rw [horders.mem_iff item]
    constructor
    · rintro ⟨list, hlist, hitem⟩
      exact ⟨list, mem_pending.mpr ⟨hlist, List.ne_nil_of_mem hitem⟩, hitem⟩
    · rintro ⟨list, hlist, hitem⟩
      exact ⟨list, (mem_pending.mp hlist).1, hitem⟩
  sublist list hlist := horders.sublist list (mem_pending.mp hlist).1

variable [DecidableEq Item]

/-- All orders of the items of some lists are equally long. -/
theorem length_eq (horders : Orders lists order) : order.length = lists.flatten.toFinset.card := by
  rw [← List.toFinset_card_of_nodup horders.nodup]
  congr 1
  ext item
  simp [horders.mem_iff item]

/-! ### No step is stuck -/

/-- The item that an order starts with heads some list and stands behind no head. -/
theorem isGoodHead_first {first : Item} (horders : Orders lists (first :: order)) :
    isGoodHead lists first := by
  rw [isGoodHead, List.all_eq_true]
  intro list hlist
  suffices hbehind : first ∉ list.tail by simpa using hbehind
  intro hfirst
  cases list with
  | nil => simp at hfirst
  | cons head tail =>
    have hsame : head = first :=
      head_eq_of_sublist (horders.sublist _ hlist) horders.nodup (List.mem_cons_of_mem _ hfirst)
    subst hsame
    exact (List.nodup_cons.mp (horders.nodup_list hlist)).1 hfirst

/-- Where there is an order, a step finds a head to take. -/
theorem exists_goodHead (horders : Orders lists order) (hsome : pending lists ≠ []) :
    ∃ item, goodHead? (pending lists) = some item := by
  have hpending := horders.of_pending
  obtain ⟨list, hlist⟩ := List.exists_mem_of_ne_nil _ hsome
  obtain ⟨item, hitem⟩ := List.exists_mem_of_ne_nil _ (mem_pending.mp hlist).2
  obtain ⟨first, rest, rfl⟩ :=
    List.exists_cons_of_ne_nil (List.ne_nil_of_mem ((hpending.sublist list hlist).subset hitem))
  -- The list that holds the first item of the order starts with it.
  obtain ⟨holder, hholder, hfirst⟩ := (hpending.mem_iff first).mp List.mem_cons_self
  have hhead : first ∈ (pending lists).filterMap List.head? := by
    refine List.mem_filterMap.mpr ⟨holder, hholder, ?_⟩
    cases holder with
    | nil => simp at hfirst
    | cons head tail =>
      exact congrArg some (head_eq_of_sublist (hpending.sublist _ hholder) hpending.nodup hfirst)
  exact Option.isSome_iff_exists.mp
    (List.find?_isSome.mpr ⟨first, hhead, hpending.isGoodHead_first⟩)

theorem dropHead_eq_erase {item : Item} {list : List Item} (htail : item ∉ list.tail) :
    dropHead item list = list.erase item := by
  cases list with
  | nil => rfl
  | cons head tail =>
    by_cases hsame : head = item
    · simp [dropHead, hsame]
    · have hrest : item ∉ tail := htail
      simp [dropHead, hsame, List.erase_of_not_mem hrest]

/-- An order without the head that a step takes is an order of what the step leaves. -/
theorem of_goodHead (horders : Orders lists order) {item : Item}
    (hgood : goodHead? lists = some item) :
    Orders (lists.map (dropHead item)) (order.erase item) := by
  have hleft : ∀ list ∈ lists, dropHead item list = list.erase item := fun list hlist ↦
    dropHead_eq_erase (not_mem_tail_of_goodHead hgood hlist)
  refine ⟨horders.nodup.erase item, fun other ↦ ?_, fun remaining hremaining ↦ ?_⟩
  · rw [horders.nodup.mem_erase_iff, horders.mem_iff other]
    constructor
    · rintro ⟨hother, list, hlist, hmem⟩
      refine ⟨_, List.mem_map_of_mem hlist, ?_⟩
      rw [hleft list hlist]
      exact (List.mem_erase_of_ne hother).mpr hmem
    · rintro ⟨_, hremaining, hmem⟩
      obtain ⟨list, hlist, rfl⟩ := List.mem_map.mp hremaining
      rw [hleft list hlist, (horders.nodup_list hlist).mem_erase_iff] at hmem
      exact ⟨hmem.1, list, hlist, hmem.2⟩
  · obtain ⟨list, hlist, rfl⟩ := List.mem_map.mp hremaining
    rw [hleft list hlist]
    exact (horders.sublist list hlist).erase item

end Orders

/-! ### The whole merge -/

variable [DecidableEq Item]

theorem merge_of_pending_eq_nil {room : Nat} {lists : List (List Item)}
    (hnothing : pending lists = []) : merge room lists = .ok [] := by
  cases room <;> simp [merge, hnothing]

theorem merge_of_goodHead {room : Nat} {lists : List (List Item)} {item : Item}
    (hgood : goodHead? (pending lists) = some item) :
    merge (room + 1) lists =
      (merge room ((pending lists).map (dropHead item))).map (item :: ·) := by
  obtain ⟨list, hlist, -⟩ := mem_of_goodHead hgood
  simp [merge, hgood, List.ne_nil_of_mem hlist]

theorem Merges.orders {room : Nat} {lists : List (List Item)} {order : List Item}
    (hmerges : Merges room lists order) : Orders lists order where
  nodup := hmerges.nodup
  mem_iff _ := hmerges.mem_iff
  sublist _ hlist := hmerges.sublist hlist

/-- Where there is an order, a merge with room for it succeeds. -/
theorem Orders.exists_merge {room : Nat} {lists : List (List Item)} {order : List Item}
    (horders : Orders lists order) (hroom : order.length ≤ room) :
    ∃ merged, merge room lists = .ok merged := by
  induction room generalizing lists order with
  | zero =>
    have hnil : order = [] := List.eq_nil_of_length_eq_zero (Nat.le_zero.mp hroom)
    have hnothing : pending lists = [] := by
      by_contra hsome
      obtain ⟨list, hlist⟩ := List.exists_mem_of_ne_nil _ hsome
      have hkept := horders.of_pending.sublist list hlist
      exact (mem_pending.mp hlist).2 (List.sublist_nil.mp (hnil ▸ hkept))
    exact ⟨[], merge_of_pending_eq_nil hnothing⟩
  | succ room ih =>
    by_cases hnothing : pending lists = []
    · exact ⟨[], merge_of_pending_eq_nil hnothing⟩
    · obtain ⟨item, hgood⟩ := horders.exists_goodHead hnothing
      have hitem : item ∈ order := by
        obtain ⟨list, hlist, hmem⟩ := mem_of_goodHead hgood
        exact (horders.of_pending.mem_iff item).mpr ⟨list, hlist, hmem⟩
      have hless : (order.erase item).length ≤ room := by
        rw [List.length_erase_of_mem hitem]
        omega
      obtain ⟨rest, hrest⟩ := ih (horders.of_pending.of_goodHead hgood) hless
      exact ⟨item :: rest, by rw [merge_of_goodHead hgood, hrest]; rfl⟩

/-- A merge finds an order exactly if there is one and there is room for it. -/
theorem exists_merge_iff {room : Nat} {lists : List (List Item)} :
    (∃ merged, merge room lists = .ok merged) ↔
      (∃ order, Orders lists order) ∧ lists.flatten.toFinset.card ≤ room := by
  constructor
  · rintro ⟨merged, hmerged⟩
    have hmerges := merges_of_merge hmerged
    exact ⟨⟨merged, hmerges.orders⟩, hmerges.orders.length_eq ▸ hmerges.length_le⟩
  · rintro ⟨⟨order, horders⟩, hroom⟩
    exact horders.exists_merge (horders.length_eq ▸ hroom)

/-- The merge ends by itself: with room for every item it is never cut off, since each step takes
an item out of all lists. -/
theorem merge_ne_tooLong {room : Nat} {lists : List (List Item)}
    (hroom : lists.flatten.toFinset.card ≤ room) : merge room lists ≠ .error .tooLong := by
  induction room generalizing lists with
  | zero =>
    have hnothing : pending lists = [] := by
      rw [Nat.le_zero, Finset.card_eq_zero, List.toFinset_eq_empty_iff,
        List.flatten_eq_nil_iff] at hroom
      refine List.filter_eq_nil_iff.mpr fun list hlist ↦ ?_
      simp [hroom list hlist]
    simp [merge_of_pending_eq_nil hnothing]
  | succ room ih =>
    by_cases hnothing : pending lists = []
    · simp [merge_of_pending_eq_nil hnothing]
    · cases hgood : goodHead? (pending lists) with
      | none => simp [merge, hnothing, hgood]
      | some item =>
        obtain ⟨list, hlist, hmem⟩ := mem_of_goodHead hgood
        have hitem : item ∈ lists.flatten.toFinset := by
          simpa using ⟨list, (mem_pending.mp hlist).1, hmem⟩
        have hfewer : ((pending lists).map (dropHead item)).flatten.toFinset ⊆
            lists.flatten.toFinset.erase item := by
          intro other hother
          obtain ⟨remaining, hremaining, hmem⟩ := List.mem_flatten.mp (List.mem_toFinset.mp hother)
          obtain ⟨list, hlist, rfl⟩ := List.mem_map.mp hremaining
          have hbehind := not_mem_dropHead (not_mem_tail_of_goodHead hgood hlist)
          refine Finset.mem_erase.mpr ⟨fun hsame ↦ hbehind (hsame ▸ hmem), ?_⟩
          simpa using ⟨list, (mem_pending.mp hlist).1, dropHead_subset item list hmem⟩
        have hless : ((pending lists).map (dropHead item)).flatten.toFinset.card ≤ room := by
          have hcard := Finset.card_le_card hfewer
          rw [Finset.card_erase_of_mem hitem] at hcard
          omega
        have hrest := ih hless
        rw [merge_of_goodHead hgood]
        cases hmerge : merge room ((pending lists).map (dropHead item)) with
        | ok rest => simp [Except.map]
        | error failure =>
          rw [hmerge] at hrest
          simpa [Except.map] using hrest

end ClassGraph

/-! ### Bases -/

namespace Heap

/-- An order of the classes that some bases inherit from and of the bases themselves, without
repetition, that agrees with the bases and with the linearization of each of them. -/
structure Linearizes (heap : Heap) (bases order : List ClassRef) : Prop where
  nodup : order.Nodup
  mem_iff : ∀ cls, cls ∈ order ↔ ∃ base ∈ bases, cls ∈ heap.linearization base
  linearization_sublist : ∀ base ∈ bases, (heap.linearization base).Sublist order
  bases_sublist : bases.Sublist order

/-- The bases that count: a class without bases has the single base `object`. -/
def impliedBases (bases : List ClassRef) : List ClassRef :=
  if bases.isEmpty then [.native .object] else bases

/-- The classes that some bases inherit from, the bases among them. -/
def ancestorsOf (heap : Heap) (bases : List ClassRef) : Finset ClassRef :=
  (bases.flatMap heap.linearization).toFinset

variable {heap : Heap}

theorem exists_mem_basisLists {bases : List ClassRef} {cls : ClassRef} :
    (∃ list ∈ heap.basisLists bases, cls ∈ list) ↔
      ∃ base ∈ bases, cls ∈ heap.linearization base := by
  simp only [basisLists, List.mem_append, List.mem_map, List.mem_singleton]
  constructor
  · rintro ⟨list, ⟨base, hbase, rfl⟩ | rfl, hcls⟩
    · exact ⟨base, hbase, hcls⟩
    · exact ⟨cls, hcls, heap.mem_linearization_self cls⟩
  · rintro ⟨base, hbase, hcls⟩
    exact ⟨_, Or.inl ⟨base, hbase, rfl⟩, hcls⟩

theorem toFinset_basisLists (bases : List ClassRef) :
    (heap.basisLists bases).flatten.toFinset = heap.ancestorsOf bases := by
  ext cls
  rw [List.mem_toFinset, List.mem_flatten, exists_mem_basisLists]
  simp [ancestorsOf]

theorem linearizes_iff {bases order : List ClassRef} :
    heap.Linearizes bases order ↔ ClassGraph.Orders (heap.basisLists bases) order := by
  constructor
  · intro hlinearizes
    refine ⟨hlinearizes.nodup, fun cls ↦ ?_, fun list hlist ↦ ?_⟩
    · rw [hlinearizes.mem_iff, exists_mem_basisLists]
    · rcases List.mem_append.mp hlist with hmapped | hall
      · obtain ⟨base, hbase, rfl⟩ := List.mem_map.mp hmapped
        exact hlinearizes.linearization_sublist base hbase
      · obtain rfl := List.mem_singleton.mp hall
        exact hlinearizes.bases_sublist
  · intro horders
    refine ⟨horders.nodup, fun cls ↦ ?_, fun base hbase ↦ ?_, ?_⟩
    · rw [horders.mem_iff, exists_mem_basisLists]
    · exact horders.sublist _ (List.mem_append_left _ (List.mem_map_of_mem hbase))
    · exact horders.sublist _ (List.mem_append_right _ (List.mem_singleton_self bases))

theorem isAcceptableBase_iff {bases : List ClassRef} :
    (∀ base ∈ bases, isAcceptableBase base) ↔
      ∀ kind, .native kind ∈ bases → kind = .object ∨ kind = .type := by
  have hnative : ∀ kind : NativeType, kind.isAcceptableBase ↔ kind = .object ∨ kind = .type := by
    intro kind
    cases kind <;> decide
  constructor
  · intro hall kind hkind
    exact (hnative kind).mp (hall (.native kind) hkind)
  · intro hall base hbase
    cases base with
    | native kind => exact (hnative kind).mpr (hall kind hbase)
    | exception | user => rfl

theorem linearizes_object : heap.Linearizes [.native .object] [.native .object] where
  nodup := List.nodup_singleton _
  mem_iff cls := by simp [linearization, NativeType.ancestors]
  linearization_sublist base hbase := by
    obtain rfl := List.mem_singleton.mp hbase
    exact List.Sublist.refl _
  bases_sublist := List.Sublist.refl _

/-- The linearization computed from bases is an order of the classes that they inherit from. -/
theorem linearizes_of_linearize {bases order : List ClassRef}
    (horder : heap.linearize bases = .ok order) : heap.Linearizes (impliedBases bases) order := by
  obtain ⟨rfl, rfl⟩ | ⟨hbases, -, -, hmerge⟩ := (heap.linearize_eq_ok_iff bases order).mp horder
  · exact linearizes_object
  · rw [impliedBases, if_neg (by simpa using hbases)]
    exact linearizes_iff.mpr (ClassGraph.merges_of_merge hmerge).orders

/-- When bases have a linearization. -/
theorem exists_linearize_iff {bases : List ClassRef} :
    (∃ order, heap.linearize bases = .ok order) ↔
      (∀ kind, .native kind ∈ impliedBases bases → kind = .object ∨ kind = .type) ∧
        (impliedBases bases).Nodup ∧
        (∃ order, heap.Linearizes (impliedBases bases) order) ∧
        (heap.ancestorsOf (impliedBases bases)).card ≤ maxLinearization := by
  by_cases hbases : bases = []
  · subst hbases
    have hcard : heap.ancestorsOf [.native .object] = {.native .object} := by
      ext cls
      simp [ancestorsOf, linearization, NativeType.ancestors]
    refine ⟨fun _ ↦ ⟨by simp [impliedBases], List.nodup_singleton _,
      ⟨_, linearizes_object⟩, ?_⟩, fun _ ↦ ⟨_, rfl⟩⟩
    simp [impliedBases, hcard, maxLinearization]
  · rw [impliedBases, if_neg (by simpa using hbases), ← isAcceptableBase_iff,
      ← toFinset_basisLists]
    simp only [linearize_eq_ok_iff, hbases, linearizes_iff, false_and, false_or, ne_eq,
      not_false_eq_true, true_and, exists_and_left, ClassGraph.exists_merge_iff]

/-- Bases without a linearization are a type error, whatever keeps them from having one. -/
theorem cls_of_linearize {bases : List ClassRef} {fault : Exception}
    (hfault : heap.linearize bases = .error fault) : fault.cls = .typeError := by
  have hbaseFault : ∀ seen bases fault, heap.baseFault? seen bases = some fault →
      fault.cls = .typeError := by
    intro seen bases
    induction bases generalizing seen with
    | nil => simp [baseFault?]
    | cons base rest ih =>
      intro fault hfault
      rw [baseFault?] at hfault
      split at hfault
      · exact Option.some.inj hfault ▸ rfl
      · split at hfault
        · exact Option.some.inj hfault ▸ rfl
        · exact ih _ fault hfault
  unfold linearize at hfault
  split at hfault
  · simp at hfault
  · split at hfault
    · rename_i first hfirst
      exact Except.error.inj hfault ▸ hbaseFault [] bases first hfirst
    · cases hmerge : ClassGraph.merge maxLinearization (heap.basisLists bases) with
      | ok order => simp [hmerge, Except.mapError] at hfault
      | error failure =>
        obtain rfl : heap.mergeFault bases failure = fault := by
          simpa [hmerge, Except.mapError] using hfault
        cases failure <;> rfl

end Heap

end Metaobject
