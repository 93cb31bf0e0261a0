import Metaobject.Proofs.ClassGraph.Lookup
import Metaobject.Proofs.Heap.Ownership

/-!
# Looking up after an update

A change of one dict is seen by reading that dict only (`Heap.entries_updateDict`). The search for a
name on a class depends on the own attributes of the classes in its linearization alone
(`Hierarchy.lookup_congr`). Since no two classes share a namespace, storing an attribute on a class
changes what is found on the classes that have it in their linearizations, and for this name only
(`DictsPrecede.ownAttribute?_insert`, `Hierarchy.lookup_insert_of_not`), and storing one on another
object changes nothing (`DictsPrecede.lookup_insert_of_other`).
-/

set_option autoImplicit false
set_option relaxedAutoImplicit false

namespace Metaobject.Heap

variable {heap : Heap} {dict address : Address} {change : Entries Value → Entries Value}

/-! ### One dict -/

theorem get?_updateDict_of_ne (hother : address ≠ dict) :
    (heap.updateDict dict change).get? address = heap.get? address := by
  unfold updateDict
  split
  · rw [get?_replace, if_neg (Ne.symm hother)]
  · rfl

theorem dict?_updateDict_of_ne (hother : address ≠ dict) :
    (heap.updateDict dict change).dict? address = heap.dict? address := by
  rw [Heap.dict?, Heap.dict?, get?_updateDict_of_ne hother]

theorem dict?_updateDict {entries : Entries Value} (hentries : heap.dict? dict = some entries) :
    (heap.updateDict dict change).dict? dict = some (change entries) := by
  have hused := lt_size_of_get? (dict?_eq_some_iff.mp hentries)
  rw [dict?_eq_some_iff, updateDict, hentries, get?_replace, if_pos rfl, if_pos hused]

theorem entries_updateDict (hdict : (heap.dict? dict).isSome) (address : Address) :
    (heap.updateDict dict change).entries address =
      if address = dict then change (heap.entries dict) else heap.entries address := by
  obtain ⟨entries, hentries⟩ := Option.isSome_iff_exists.mp hdict
  by_cases hsame : address = dict
  · subst hsame
    rw [if_pos rfl, Heap.entries, dict?_updateDict hentries, Heap.entries, hentries]
    rfl
  · rw [if_neg hsame, Heap.entries, dict?_updateDict_of_ne hsame, Heap.entries]

/-- Changing a dict changes no class, instance or module. -/
theorem attributeDict?_updateDict (address : Address) :
    (heap.updateDict dict change).attributeDict? address = heap.attributeDict? address := by
  unfold updateDict
  split
  · rename_i entries hentries
    exact attributeDict?_replace (dict?_eq_some_iff.mp hentries) rfl rfl address
  · rfl

theorem sameClasses_updateDict : heap.SameClasses (heap.updateDict dict change) := by
  intro address
  by_cases hsame : address = dict
  · subst hsame
    unfold updateDict
    split
    · rename_i entries hentries
      have hused := lt_size_of_get? (dict?_eq_some_iff.mp hentries)
      rw [userClass?, userClass?, get?_replace, if_pos rfl, if_pos hused,
        dict?_eq_some_iff.mp hentries]
    · rfl
  · rw [userClass?, userClass?, get?_updateDict_of_ne hsame]

/-! ### The search for a name -/

/-- The search for a name on a class is a matter of what the classes of its linearization have in
their own namespaces. -/
theorem Hierarchy.lookup_congr {shape first second : Heap} (hhierarchy : shape.Hierarchy)
    (hfirst : shape.SameClasses first) (hsecond : shape.SameClasses second) {name : String}
    {cls : ClassRef} (hcls : shape.HasClass cls)
    (hown : ∀ ancestor, .user ancestor ∈ shape.linearization cls →
      first.ownAttribute? ancestor name = second.ownAttribute? ancestor name) :
    first.lookup name cls = second.lookup name cls := by
  cases cls with
  | native | exception => rfl
  | user address =>
    induction address using Nat.strongRecOn with
    | ind address ih =>
      obtain ⟨record, hrecord⟩ := Option.isSome_iff_exists.mp hcls
      have hwhole := linearization_user hrecord
      rw [lookup, lookup, hhierarchy.lookupUser_eq hfirst hrecord,
        hhierarchy.lookupUser_eq hsecond hrecord, ownOr, ownOr,
        hown address (hwhole ▸ List.mem_cons_self)]
      refine congrArg _ (funext fun _ ↦ findSome?_congr fun ancestor habove ↦ ?_)
      cases ancestor with
      | native | exception => rfl
      | user older =>
        have hmem : .user older ∈ shape.linearization (.user address) :=
          hwhole ▸ List.mem_cons_of_mem _ habove
        have hlinear := hhierarchy.linear hcls
        refine ih older (hhierarchy.isOlder_ancestor hrecord habove)
          (hlinear.hasClass _ hmem) fun ancestor hancestor ↦ ?_
        exact hown ancestor ((hlinear.sublist _ hmem).subset hancestor)

/-- A class finds what it has in its own namespace. -/
theorem lookup_of_ownAttribute? {name : String} {value : Value}
    (hown : heap.ownAttribute? address name = some value) :
    heap.lookup name (.user address) = some value := by
  rw [lookup, lookupUser, hown]
  rfl

/-! ### Storing an attribute -/

theorem attributeDict?_of_userClass? {record : ClassRecord}
    (hrecord : heap.userClass? address = some record) :
    heap.attributeDict? address = some record.namespaceDict := by
  rw [attributeDict?_eq_bind, userClass?_eq_some_iff.mp hrecord]
  rfl

theorem attributeDict?_of_instance? {cls attributes : Address}
    (hinstance : heap.instance? address = some (cls, attributes)) :
    heap.attributeDict? address = some attributes := by
  rw [attributeDict?_eq_bind, instance?_eq_some_iff.mp hinstance]
  rfl

theorem attributeDict?_of_module? {name : String}
    (hmodule : heap.module? address = some (name, dict)) :
    heap.attributeDict? address = some dict := by
  rw [attributeDict?_eq_bind, module?_eq_some_iff.mp hmodule]
  rfl

/-- The own attributes of classes after an attribute is stored. -/
theorem DictsPrecede.ownAttribute?_insert (hprecede : heap.DictsPrecede) {holder : Address}
    (howned : heap.attributeDict? holder = some dict) (hdict : (heap.dict? dict).isSome)
    {cls : Address} (hcls : (heap.userClass? cls).isSome) (name sought : String)
    (content : Value) :
    (heap.updateDict dict (·.insert name content)).ownAttribute? cls sought =
      if cls = holder ∧ sought = name then some content else heap.ownAttribute? cls sought := by
  obtain ⟨record, hrecord⟩ := Option.isSome_iff_exists.mp hcls
  have hnamespace := attributeDict?_of_userClass? hrecord
  have hlater : (heap.updateDict dict (·.insert name content)).userClass? cls = some record :=
    (sameClasses_updateDict cls).trans hrecord
  simp only [ownAttribute?, hlater, hrecord, entries_updateDict hdict]
  by_cases hholder : cls = holder
  · subst hholder
    obtain rfl : record.namespaceDict = dict := Option.some.inj (hnamespace.symm.trans howned)
    simp only [↓reduceIte, Entries.find?_insert, true_and]
  · have hapart : record.namespaceDict ≠ dict := fun hsame ↦
      hholder (hprecede.unique (hsame ▸ hnamespace) howned)
    simp only [if_neg hapart, hholder, false_and, ↓reduceIte]

section

variable (hformed : heap.WellFormed) (hprecede : heap.DictsPrecede) {holder : Address}
  (howned : heap.attributeDict? holder = some dict) {cls : ClassRef} (hcls : heap.HasClass cls)

include hformed hprecede howned hcls

/-- What is found on a class is the same after an attribute is stored, unless it is sought under the
name of the attribute and the holder is in the linearization of the class. -/
theorem DictsPrecede.lookup_insert_of_not {name sought : String} (content : Value)
    (hnot : ¬(sought = name ∧ .user holder ∈ heap.linearization cls)) :
    (heap.updateDict dict (·.insert name content)).lookup sought cls = heap.lookup sought cls := by
  refine hformed.hierarchy.lookup_congr sameClasses_updateDict (.refl heap) hcls
    fun ancestor hancestor ↦ ?_
  have hthere := hformed.hasClass_linearization hcls hancestor
  rw [hprecede.ownAttribute?_insert howned (hformed.attributeDict? howned) hthere, if_neg]
  rintro ⟨rfl, hname⟩
  exact hnot ⟨hname, hancestor⟩

/-- What is found on classes is the same after an attribute is stored on anything else. -/
theorem DictsPrecede.lookup_insert_of_other (hother : heap.userClass? holder = none)
    (name sought : String) (content : Value) :
    (heap.updateDict dict (·.insert name content)).lookup sought cls = heap.lookup sought cls := by
  refine hprecede.lookup_insert_of_not hformed howned hcls content fun hboth ↦ ?_
  have hthere := hformed.hasClass_linearization hcls hboth.2
  rw [hasClass_user, hother] at hthere
  cases hthere

end

end Metaobject.Heap
