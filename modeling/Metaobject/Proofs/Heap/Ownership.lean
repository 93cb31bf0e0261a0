import Metaobject.Proofs.Heap.Sparing
import Metaobject.Proofs.Heap.WellFormed

/-!
# Who owns an attribute dict

What one step can do to a heap (`Heap.Step`): it puts in an object without attributes, or a dict and
right after it the object that has the dict for its attributes, or it replaces an object by another
one, both without attributes. So an object with attributes is always the next one after its
attribute dict (`Heap.DictsPrecede`, `Step.dictsPrecede`), and no two objects share one
(`DictsPrecede.unique`), whatever other values the dict is handed out to.
-/

set_option autoImplicit false
set_option relaxedAutoImplicit false

namespace Metaobject.Heap

variable {heap older newer : Heap} {address : Address}

/-! ### Steps -/

/-- What a single step can do to a heap. -/
inductive Step : Heap → Heap → Prop
  | same (heap : Heap) : Step heap heap
  | bare {heap : Heap} {object : Object} (hbare : object.attributeDict? = none) :
      Step heap (heap.allocate object)
  | owner {heap : Heap} {entries : Entries Value} {object : Object}
      (howns : object.attributeDict? = some heap.size) :
      Step heap ((heap.allocate (.dict entries)).allocate object)
  | replace {heap : Heap} {address : Address} {old new : Object}
      (hold : heap.get? address = some old) (hbare : old.attributeDict? = none)
      (hnew : new.attributeDict? = none) : Step heap (heap.replace address new)

theorem step_updateDict (change : Entries Value → Entries Value) :
    Step heap (heap.updateDict address change) := by
  unfold updateDict
  split
  · rename_i entries hentries
    exact .replace (dict?_eq_some_iff.mp hentries) rfl rfl
  · exact .same heap

theorem step_setCell (content : Value) : Step heap (heap.setCell address content) := by
  unfold setCell
  split
  · rename_i old hold
    exact .replace (cell?_eq_some_iff.mp hold) rfl rfl
  · exact .same heap

theorem step_append (item : Value) : Step heap (heap.append address item) := by
  unfold append
  split
  · rename_i items hitems
    exact .replace (list?_eq_some_iff.mp hitems) rfl rfl
  · exact .same heap

theorem step_advance (remaining : List Value) : Step heap (heap.advance address remaining) := by
  unfold advance
  split
  · rename_i old hold
    exact .replace hold rfl rfl
  · exact .same heap

/-! ### Attribute dicts over a step -/

/-- Whether every object with attributes is the next one after its attribute dict. -/
def DictsPrecede (heap : Heap) : Prop :=
  ∀ holder dict, heap.attributeDict? holder = some dict → holder = dict + 1

theorem dictsPrecede_empty : DictsPrecede empty := by
  intro holder dict howned
  simp [attributeDict?, get?, empty] at howned

/-- No two objects have the same dict for their attributes. -/
theorem DictsPrecede.unique (hprecede : heap.DictsPrecede) {first second dict : Address}
    (hfirst : heap.attributeDict? first = some dict)
    (hsecond : heap.attributeDict? second = some dict) : first = second :=
  (hprecede first dict hfirst).trans (hprecede second dict hsecond).symm

theorem Step.dictsPrecede (hstep : Step older newer) (hprecede : older.DictsPrecede) :
    newer.DictsPrecede := by
  intro holder dict howned
  cases hstep with
  | same => exact hprecede holder dict howned
  | bare hbare =>
    rw [attributeDict?_allocate] at howned
    split at howned
    · rw [hbare] at howned
      cases howned
    · exact hprecede holder dict howned
  | @owner entries object howns =>
    rw [attributeDict?_allocate, attributeDict?_allocate] at howned
    split at howned
    · rename_i hlast
      obtain rfl : older.size = dict := Option.some.inj (howns.symm.trans howned)
      exact hlast.trans (older.size_allocate (.dict entries))
    · split at howned
      · cases howned
      · exact hprecede holder dict howned
  | replace hold hbare hnew =>
    rw [attributeDict?_replace hold hbare hnew] at howned
    exact hprecede holder dict howned

/-- The attribute dict of an object is there. -/
theorem WellFormed.attributeDict? (hformed : heap.WellFormed) {holder dict : Address}
    (howned : heap.attributeDict? holder = some dict) : (heap.dict? dict).isSome := by
  rw [attributeDict?_eq_bind] at howned
  obtain ⟨object, hobject, hdict⟩ := Option.bind_eq_some_iff.mp howned
  have hsound := hformed.sound holder object hobject
  refine holds_dict.mp ?_
  cases object with
  | instanceOf => exact Option.some.inj hdict ▸ hsound.2
  | userClass | moduleObject => exact Option.some.inj hdict ▸ hsound
  | _ => cases hdict

end Metaobject.Heap
