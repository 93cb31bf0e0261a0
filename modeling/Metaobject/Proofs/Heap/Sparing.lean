import Metaobject.Proofs.Heap.Growth

/-!
# What steps leave alone

Heaps over time, seen from the dicts in them (`Heap.Spares`). Dicts that are spared have the same
entries in the same order later on. The attribute dict of an instance, a class or a module is the
one it was made with, and it is as new as the object. So a dict that is there is the attribute dict
of the same objects ever after (`Spares.attributeDict?_iff`). Sparing is a preorder, and creating an
object or changing one in place is a step of it.
-/

set_option autoImplicit false
set_option relaxedAutoImplicit false

namespace Metaobject

/-- The dict for the attributes of an object, if it has attributes that can be stored. -/
def Object.attributeDict? : Object → Option Address
  | .instanceOf _ attributes => some attributes
  | .userClass record => some record.namespaceDict
  | .moduleObject _ namespaceDict => some namespaceDict
  | _ => none

namespace Heap

theorem attributeDict?_eq_bind (heap : Heap) (address : Address) :
    heap.attributeDict? address = (heap.get? address).bind Object.attributeDict? := by
  unfold attributeDict?
  cases heap.get? address with
  | none => rfl
  | some object => cases object <;> rfl

theorem lt_size_of_attributeDict? {heap : Heap} {holder dict : Address}
    (howned : heap.attributeDict? holder = some dict) : holder < heap.size := by
  rw [attributeDict?_eq_bind] at howned
  obtain ⟨object, hobject, -⟩ := Option.bind_eq_some_iff.mp howned
  exact lt_size_of_get? hobject

theorem attributeDict?_allocate {heap : Heap} (object : Object) (holder : Address) :
    (heap.allocate object).attributeDict? holder =
      if holder = heap.size then object.attributeDict? else heap.attributeDict? holder := by
  rw [attributeDict?_eq_bind, attributeDict?_eq_bind, get?_allocate]
  split <;> rfl

theorem attributeDict?_replace {heap : Heap} {address : Address} {old new : Object}
    (hold : heap.get? address = some old) (hbare : old.attributeDict? = none)
    (hnew : new.attributeDict? = none) (holder : Address) :
    (heap.replace address new).attributeDict? holder = heap.attributeDict? holder := by
  rw [attributeDict?_eq_bind, attributeDict?_eq_bind, get?_replace]
  by_cases hholder : address = holder
  · subst hholder
    rw [if_pos rfl, if_pos (lt_size_of_get? hold), hold, Option.bind_some, Option.bind_some, hnew,
      hbare]
  · rw [if_neg hholder]

/-- Whether from one heap to a later one the spared dicts keep their entries, every object keeps its
attribute dict, and nothing that is new has an old dict for its attributes. -/
structure Spares (spared : Address → Prop) (older newer : Heap) : Prop where
  size_le : older.size ≤ newer.size
  kept : ∀ dict entries, spared dict → older.dict? dict = some entries →
    newer.dict? dict = some entries
  same : ∀ holder < older.size, newer.attributeDict? holder = older.attributeDict? holder
  fresh : ∀ holder dict, older.size ≤ holder → newer.attributeDict? holder = some dict →
    older.size ≤ dict

namespace Spares

variable {spared : Address → Prop} {first second third : Heap}

theorem refl (spared : Address → Prop) (heap : Heap) : Spares spared heap heap where
  size_le := Nat.le_refl _
  kept _ _ _ hentries := hentries
  same _ _ := rfl
  fresh _ _ hholder howned := absurd (lt_size_of_attributeDict? howned) (Nat.not_lt_of_le hholder)

theorem trans (hfirst : Spares spared first second) (hsecond : Spares spared second third) :
    Spares spared first third where
  size_le := Nat.le_trans hfirst.size_le hsecond.size_le
  kept dict entries hspared hentries :=
    hsecond.kept dict entries hspared (hfirst.kept dict entries hspared hentries)
  same holder hholder :=
    (hsecond.same holder (Nat.lt_of_lt_of_le hholder hfirst.size_le)).trans
      (hfirst.same holder hholder)
  fresh holder dict hholder howned := by
    by_cases hmiddle : holder < second.size
    · exact hfirst.fresh holder dict hholder ((hsecond.same holder hmiddle).symm.trans howned)
    · exact Nat.le_trans hfirst.size_le
        (hsecond.fresh holder dict (Nat.le_of_not_lt hmiddle) howned)

/-- A dict that is there is the attribute dict of the same objects later on. -/
theorem attributeDict?_iff (hspares : Spares spared first second) {dict : Address}
    (hdict : (first.dict? dict).isSome) (holder : Address) :
    second.attributeDict? holder = some dict ↔ first.attributeDict? holder = some dict := by
  obtain ⟨entries, hentries⟩ := Option.isSome_iff_exists.mp hdict
  have hold := lt_size_of_get? (dict?_eq_some_iff.mp hentries)
  by_cases hholder : holder < first.size
  · rw [hspares.same holder hholder]
  · constructor
    · intro howned
      have hnew := hspares.fresh holder dict (Nat.le_of_not_lt hholder) howned
      exact absurd hold (Nat.not_lt_of_le hnew)
    · intro howned
      exact absurd (lt_size_of_attributeDict? howned) hholder

end Spares

/-! ### Steps -/

variable {spared : Address → Prop} {heap : Heap} {address : Address}

/-- A new object spares everything if its attribute dict is new, for whatever heap it is new. -/
theorem Spares.allocate {older : Heap} (hspares : Spares spared older heap) {object : Object}
    (hobject : ∀ dict, object.attributeDict? = some dict → older.size ≤ dict) :
    Spares spared older (heap.allocate object) where
  size_le := by
    rw [size_allocate]
    exact Nat.le_succ_of_le hspares.size_le
  kept dict entries hdict hentries := by
    have hkept := hspares.kept dict entries hdict hentries
    rw [dict?_eq_some_iff] at hkept ⊢
    exact heap.extends_allocate object dict _ hkept
  same holder hholder := by
    have hother : holder ≠ heap.size := Nat.ne_of_lt (Nat.lt_of_lt_of_le hholder hspares.size_le)
    rw [attributeDict?_allocate, if_neg hother]
    exact hspares.same holder hholder
  fresh holder dict hholder howned := by
    rw [attributeDict?_allocate] at howned
    split at howned
    · exact hobject dict howned
    · exact hspares.fresh holder dict hholder howned

/-- A new object without attributes spares everything. -/
theorem Spares.allocate_bare {older : Heap} (hspares : Spares spared older heap) {object : Object}
    (hobject : object.attributeDict? = none) : Spares spared older (heap.allocate object) :=
  hspares.allocate fun dict howned ↦ by
    rw [hobject] at howned
    cases howned

/-- Replacing an object by another one, both without attributes, spares every dict but the one at
its address. -/
theorem spares_replace {old new : Object} (hold : heap.get? address = some old)
    (hbare : old.attributeDict? = none) (hnew : new.attributeDict? = none)
    (hspared : ∀ entries, old = .dict entries → ¬spared address) :
    Spares spared heap (heap.replace address new) := by
  have hsame := attributeDict?_replace hold hbare hnew
  refine ⟨Nat.le_of_eq (size_replace heap address new).symm, ?_, fun holder _ ↦ hsame holder, ?_⟩
  · intro dict entries hdict hentries
    rw [dict?_eq_some_iff] at hentries ⊢
    by_cases hchanged : address = dict
    · subst hchanged
      exact absurd hdict (hspared entries (Option.some.inj (hold.symm.trans hentries)))
    · rwa [get?_replace, if_neg hchanged]
  · intro holder dict hholder howned
    rw [hsame] at howned
    exact absurd (lt_size_of_attributeDict? howned) (Nat.not_lt_of_le hholder)

theorem spares_updateDict (hspared : ¬spared address) (change : Entries Value → Entries Value) :
    Spares spared heap (heap.updateDict address change) := by
  unfold updateDict
  split
  · rename_i entries hentries
    exact spares_replace (dict?_eq_some_iff.mp hentries) rfl rfl fun _ _ ↦ hspared
  · exact .refl spared heap

theorem spares_setCell (content : Value) : Spares spared heap (heap.setCell address content) := by
  unfold setCell
  split
  · rename_i old hold
    exact spares_replace (cell?_eq_some_iff.mp hold) rfl rfl fun _ hdict ↦ nomatch hdict
  · exact .refl spared heap

theorem spares_append (item : Value) : Spares spared heap (heap.append address item) := by
  unfold append
  split
  · rename_i items hitems
    exact spares_replace (list?_eq_some_iff.mp hitems) rfl rfl fun _ hdict ↦ nomatch hdict
  · exact .refl spared heap

theorem spares_advance (remaining : List Value) :
    Spares spared heap (heap.advance address remaining) := by
  unfold advance
  split
  · rename_i old hold
    exact spares_replace hold rfl rfl fun _ hdict ↦ nomatch hdict
  · exact .refl spared heap

end Heap

end Metaobject
