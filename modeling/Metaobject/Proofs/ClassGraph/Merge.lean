import Mathlib.Data.List.Nodup
import Mathlib.Tactic.Tauto
import Metaobject.ClassGraph.Merge

/-!
# What a merge keeps

A merge that succeeds takes one good head after the other (`Merges`). It repeats no item
(`Merges.nodup`), keeps the order of each list (`Merges.sublist`), holds the items of the lists and
no others (`Merges.mem_iff`), and is no longer than the room it was given (`Merges.length_le`). One
step takes an item that stands behind no head, so dropping it from the heads drops it from every
list (`not_mem_dropHead`).
-/

set_option autoImplicit false
set_option relaxedAutoImplicit false

namespace Metaobject.ClassGraph

variable {Item : Type} [DecidableEq Item]

/-! ### One step -/

omit [DecidableEq Item] in
theorem mem_pending {lists : List (List Item)} {list : List Item} :
    list ∈ pending lists ↔ list ∈ lists ∧ list ≠ [] := by
  simp [pending]

/-- The head that a step takes is the head of one of the lists. -/
theorem mem_of_goodHead {lists : List (List Item)} {item : Item}
    (hgood : goodHead? lists = some item) : ∃ list ∈ lists, item ∈ list := by
  obtain ⟨list, hlist, hhead⟩ := List.mem_filterMap.mp (List.mem_of_find?_eq_some hgood)
  exact ⟨list, hlist, List.mem_of_mem_head? hhead⟩

/-- The head that a step takes stands behind no head. -/
theorem not_mem_tail_of_goodHead {lists : List (List Item)} {item : Item}
    (hgood : goodHead? lists = some item) {list : List Item} (hlist : list ∈ lists) :
    item ∉ list.tail := by
  have hall := List.find?_some hgood
  rw [isGoodHead, List.all_eq_true] at hall
  simpa using hall list hlist

theorem not_mem_dropHead {item : Item} {list : List Item} (htail : item ∉ list.tail) :
    item ∉ dropHead item list := by
  cases list with
  | nil => simp [dropHead]
  | cons head rest =>
    by_cases hsame : head = item
    · simpa [dropHead, hsame] using htail
    · have hrest : item ∉ rest := htail
      simp [dropHead, hsame, hrest, Ne.symm hsame]

theorem dropHead_subset (item : Item) (list : List Item) : dropHead item list ⊆ list := by
  unfold dropHead
  split
  · exact (List.tail_sublist list).subset
  · exact List.Subset.refl list

/-- A list is kept by an order when what is left of it after a step is kept by the rest of that
order. -/
theorem sublist_cons_of_dropHead {item : Item} {list order : List Item}
    (hkept : (dropHead item list).Sublist order) : list.Sublist (item :: order) := by
  cases list with
  | nil => exact List.nil_sublist _
  | cons head rest =>
    by_cases hsame : head = item
    · subst hsame
      have hrest : rest.Sublist order := by simpa [dropHead] using hkept
      exact hrest.cons_cons head
    · have hwhole : (head :: rest).Sublist order := by simpa [dropHead, hsame] using hkept
      exact hwhole.cons item

/-! ### The whole merge -/

/-- How a merge that succeeds comes about: nothing is left to merge, or a good head is taken and the
merge goes on with what the lists hold behind it. -/
inductive Merges : Nat → List (List Item) → List Item → Prop
  | done {room : Nat} {lists : List (List Item)} (hdone : pending lists = []) : Merges room lists []
  | step {room : Nat} {lists : List (List Item)} {item : Item} {rest : List Item}
      (hgood : goodHead? (pending lists) = some item)
      (hrest : Merges room ((pending lists).map (dropHead item)) rest) :
      Merges (room + 1) lists (item :: rest)

theorem merges_of_merge {room : Nat} {lists : List (List Item)} {order : List Item}
    (hmerge : merge room lists = .ok order) : Merges room lists order := by
  induction room generalizing lists order with
  | zero =>
    rw [merge] at hmerge
    split at hmerge
    · rename_i hempty
      obtain rfl : [] = order := Except.ok.inj hmerge
      exact .done (List.isEmpty_iff.mp hempty)
    · split at hmerge <;> simp at hmerge
  | succ room ih =>
    rw [merge] at hmerge
    split at hmerge
    · rename_i hempty
      obtain rfl : [] = order := Except.ok.inj hmerge
      exact .done (List.isEmpty_iff.mp hempty)
    · split at hmerge
      · simp at hmerge
      · rename_i item hgood
        cases hrest : merge room ((pending lists).map (dropHead item)) with
        | error failure => simp [hrest, Except.map] at hmerge
        | ok rest =>
          obtain rfl : item :: rest = order := by simpa [hrest, Except.map] using hmerge
          exact .step hgood (ih hrest)

namespace Merges

variable {room : Nat} {lists : List (List Item)} {order : List Item}

theorem length_le (hmerges : Merges room lists order) : order.length ≤ room := by
  induction hmerges with
  | done => exact Nat.zero_le _
  | step _ _ ih => exact Nat.succ_le_succ ih

theorem sublist (hmerges : Merges room lists order) {list : List Item} (hlist : list ∈ lists) :
    list.Sublist order := by
  induction hmerges generalizing list with
  | done hdone =>
    by_cases hnil : list = []
    · exact hnil ▸ List.nil_sublist _
    · have hpending := mem_pending.mpr ⟨hlist, hnil⟩
      simp [hdone] at hpending
  | step _ _ ih =>
    by_cases hnil : list = []
    · exact hnil ▸ List.nil_sublist _
    · have hpending := mem_pending.mpr ⟨hlist, hnil⟩
      exact sublist_cons_of_dropHead (ih (List.mem_map_of_mem hpending))

/-- The items of a merge are those of the lists. -/
theorem mem_iff (hmerges : Merges room lists order) {item : Item} :
    item ∈ order ↔ ∃ list ∈ lists, item ∈ list := by
  refine ⟨fun hitem ↦ ?_, fun ⟨list, hlist, hitem⟩ ↦ (hmerges.sublist hlist).subset hitem⟩
  induction hmerges with
  | done => simp at hitem
  | @step _ _ taken _ hgood _ ih =>
    rcases List.mem_cons.mp hitem with rfl | hlater
    · obtain ⟨list, hlist, hmem⟩ := mem_of_goodHead hgood
      exact ⟨list, (mem_pending.mp hlist).1, hmem⟩
    · obtain ⟨remaining, hremaining, hmem⟩ := ih hlater
      obtain ⟨list, hlist, rfl⟩ := List.mem_map.mp hremaining
      exact ⟨list, (mem_pending.mp hlist).1, dropHead_subset taken list hmem⟩

theorem nodup (hmerges : Merges room lists order) : order.Nodup := by
  induction hmerges with
  | done => exact List.nodup_nil
  | step hgood hrest ih =>
    refine List.nodup_cons.mpr ⟨fun hitem ↦ ?_, ih⟩
    -- What is left of a list no longer holds the item just taken.
    obtain ⟨remaining, hremaining, hmem⟩ := hrest.mem_iff.mp hitem
    obtain ⟨list, hlist, rfl⟩ := List.mem_map.mp hremaining
    exact not_mem_dropHead (not_mem_tail_of_goodHead hgood hlist) hmem

end Merges

end Metaobject.ClassGraph
