import Metaobject.ClassGraph.Lookup
import Metaobject.Proofs.ClassGraph.Metaclass

/-!
# Well-formed heaps

A heap holds a value when the value names objects of its kind and writes integers in their one form
(`Heap.Holds`). In a well-formed heap (`Heap.WellFormed`) every object refers to values that the
heap holds and the classes are a hierarchy. What a heap holds it goes on holding while it grows
(`Holds.grow`). Putting a new object in (`WellFormed.allocate`), a new class
(`WellFormed.allocate_class`), and other contents into a container (`WellFormed.replace`) keeps a
heap well-formed when the new object refers to held values. Reading in a well-formed heap gives held
values.
-/

set_option autoImplicit false
set_option relaxedAutoImplicit false

namespace Metaobject

namespace Heap

variable {heap older newer : Heap} {address : Address}

/-! ### Held values -/

/-- Whether a value names only objects of its kind in the heap and is in its one form. -/
inductive Holds (heap : Heap) : Value → Prop
  | null : Holds heap .null
  | ellipsis : Holds heap .ellipsis
  | bool (truth : Bool) : Holds heap (.bool truth)
  | int (word : Int64) : Holds heap (.int word)
  | long (value : Int) (hwide : Value.fitsWord value = false) : Holds heap (.long value)
  | float (number : Float) : Holds heap (.float number)
  | text (content : String) : Holds heap (.text content)
  | bytes (content : List UInt8) : Holds heap (.bytes content)
  | tuple (items : List Value) (hitems : ∀ item ∈ items, Holds heap item) :
      Holds heap (.tuple items)
  | list (address : Address) (hlist : (heap.list? address).isSome) : Holds heap (.list address)
  | dict (address : Address) (hdict : (heap.dict? address).isSome) : Holds heap (.dict address)
  | builtin (builtin : Builtin) : Holds heap (.builtin builtin)
  | userClass (address : Address) (hclass : (heap.userClass? address).isSome) :
      Holds heap (.userClass address)
  | object (address : Address) (hobject : (heap.instance? address).isSome) :
      Holds heap (.object address)
  | function (address : Address) (hfunction : (heap.function? address).isSome) :
      Holds heap (.function address)
  | method (address : Address) (hmethod : (heap.method? address).isSome) :
      Holds heap (.method address)
  | cell (address : Address) (hcell : (heap.cell? address).isSome) : Holds heap (.cell address)
  | code (address : Address) (hcode : (heap.code? address).isSome) : Holds heap (.code address)
  | moduleObject (address : Address) (hmodule : (heap.module? address).isSome) :
      Holds heap (.moduleObject address)
  | iterator (address : Address) (remaining : List Value)
      (hiterator : heap.get? address = some (.iterator remaining)) : Holds heap (.iterator address)
  | exception (address : Address) (hexception : (heap.exception? address).isSome) :
      Holds heap (.exception address)

attribute [simp] Holds.null Holds.ellipsis Holds.bool Holds.int Holds.float Holds.text Holds.bytes
  Holds.builtin

@[simp] theorem holds_tuple {items : List Value} :
    heap.Holds (.tuple items) ↔ ∀ item ∈ items, heap.Holds item :=
  ⟨fun hheld ↦ by cases hheld; assumption, .tuple items⟩

@[simp] theorem holds_list : heap.Holds (.list address) ↔ (heap.list? address).isSome :=
  ⟨fun hheld ↦ by cases hheld; assumption, .list address⟩

@[simp] theorem holds_dict : heap.Holds (.dict address) ↔ (heap.dict? address).isSome :=
  ⟨fun hheld ↦ by cases hheld; assumption, .dict address⟩

@[simp] theorem holds_userClass :
    heap.Holds (.userClass address) ↔ (heap.userClass? address).isSome :=
  ⟨fun hheld ↦ by cases hheld; assumption, .userClass address⟩

@[simp] theorem holds_object : heap.Holds (.object address) ↔ (heap.instance? address).isSome :=
  ⟨fun hheld ↦ by cases hheld; assumption, .object address⟩

@[simp] theorem holds_function : heap.Holds (.function address) ↔ (heap.function? address).isSome :=
  ⟨fun hheld ↦ by cases hheld; assumption, .function address⟩

@[simp] theorem holds_method : heap.Holds (.method address) ↔ (heap.method? address).isSome :=
  ⟨fun hheld ↦ by cases hheld; assumption, .method address⟩

@[simp] theorem holds_cell : heap.Holds (.cell address) ↔ (heap.cell? address).isSome :=
  ⟨fun hheld ↦ by cases hheld; assumption, .cell address⟩

@[simp] theorem holds_code : heap.Holds (.code address) ↔ (heap.code? address).isSome :=
  ⟨fun hheld ↦ by cases hheld; assumption, .code address⟩

@[simp] theorem holds_moduleObject :
    heap.Holds (.moduleObject address) ↔ (heap.module? address).isSome :=
  ⟨fun hheld ↦ by cases hheld; assumption, .moduleObject address⟩

@[simp] theorem holds_exception :
    heap.Holds (.exception address) ↔ (heap.exception? address).isSome :=
  ⟨fun hheld ↦ by cases hheld; assumption, .exception address⟩

theorem Holds.grow (hgrows : older.GrowsTo newer) {value : Value} (hheld : older.Holds value) :
    newer.Holds value := by
  induction hheld with
  | null | ellipsis | bool | int | float | text | bytes | builtin => simp
  | long value hwide => exact .long value hwide
  | tuple items _ ih => exact .tuple items ih
  | list address hlist => exact .list address (hgrows.list?_isSome hlist)
  | dict address hdict => exact .dict address (hgrows.dict?_isSome hdict)
  | cell address hcell => exact .cell address (hgrows.cell?_isSome hcell)
  | userClass address hclass =>
    exact .userClass address (hgrows.userClass?_isSome hclass)
  | object address hobject =>
    obtain ⟨⟨cls, attributes⟩, hfound⟩ := Option.isSome_iff_exists.mp hobject
    exact .object address (Option.isSome_of_eq_some (hgrows.instance? hfound))
  | function address hfunction =>
    obtain ⟨record, hfound⟩ := Option.isSome_iff_exists.mp hfunction
    exact .function address (Option.isSome_of_eq_some (hgrows.function? hfound))
  | method address hmethod =>
    obtain ⟨⟨receiver, function⟩, hfound⟩ := Option.isSome_iff_exists.mp hmethod
    exact .method address (Option.isSome_of_eq_some (hgrows.method? hfound))
  | code address hcode =>
    obtain ⟨record, hfound⟩ := Option.isSome_iff_exists.mp hcode
    exact .code address (Option.isSome_of_eq_some (hgrows.code? hfound))
  | moduleObject address hmodule =>
    obtain ⟨⟨name, namespaceDict⟩, hfound⟩ := Option.isSome_iff_exists.mp hmodule
    exact .moduleObject address (Option.isSome_of_eq_some (hgrows.module? hfound))
  | iterator address remaining hiterator =>
    obtain ⟨later, hlater, hbecomes⟩ := hgrows _ _ hiterator
    cases hbecomes <;> exact .iterator address _ hlater
  | exception address hexception =>
    obtain ⟨exception, hfound⟩ := Option.isSome_iff_exists.mp hexception
    exact .exception address (Option.isSome_of_eq_some (hgrows.exception? hfound))

@[simp] theorem holds_ofInt (heap : Heap) (value : Int) : heap.Holds (.ofInt value) := by
  unfold Value.ofInt
  split
  · exact .int _
  · exact .long value (by simpa using ‹¬Value.fitsWord value = true›)

@[simp] theorem holds_ofNat (heap : Heap) (value : Nat) : heap.Holds (.ofNat value) :=
  heap.holds_ofInt value

theorem holds_toValue {cls : ClassRef} : heap.Holds cls.toValue ↔ heap.HasClass cls := by
  cases cls <;> simp [ClassRef.toValue]

/-- The type of a held value stays what it is. -/
theorem GrowsTo.typeOf (hgrows : older.GrowsTo newer) {value : Value} (hheld : older.Holds value) :
    newer.typeOf value = older.typeOf value := by
  cases hheld with
  | builtin builtin => cases builtin <;> rfl
  | userClass address hclass =>
    have hcls : older.HasClass (.user address) := hclass
    exact hgrows.metaclassOf hcls
  | object address hobject =>
    obtain ⟨⟨cls, attributes⟩, hfound⟩ := Option.isSome_iff_exists.mp hobject
    simp only [Heap.typeOf, hfound, hgrows.instance? hfound]
  | exception address hexception =>
    obtain ⟨exception, hfound⟩ := Option.isSome_iff_exists.mp hexception
    simp only [Heap.typeOf, hfound, hgrows.exception? hfound]
  | _ => rfl

theorem Holds.hasClass {value : Value} {cls : ClassRef} (hheld : heap.Holds value)
    (hcls : value.class? = some cls) : heap.HasClass cls := by
  cases value with
  | builtin builtin =>
    cases builtin with
    | function => simp [Value.class?] at hcls
    | type | exception => obtain rfl := Option.some.inj hcls; trivial
  | userClass => obtain rfl := Option.some.inj hcls; exact holds_userClass.mp hheld
  | _ => simp [Value.class?] at hcls

@[simp] theorem holds_ofOption {content : Option Value} :
    heap.Holds (.ofOption content) ↔ ∀ value ∈ content, heap.Holds value := by
  cases content <;> simp [Value.ofOption]

/-- Whether the values under all keys are held. -/
def HoldsEntries (heap : Heap) (entries : Entries Value) : Prop :=
  ∀ pair ∈ entries.toList, heap.Holds pair.2

theorem HoldsEntries.grow (hgrows : older.GrowsTo newer) {entries : Entries Value}
    (hheld : older.HoldsEntries entries) : newer.HoldsEntries entries :=
  fun pair hpair ↦ (hheld pair hpair).grow hgrows

end Heap

/-! ### Sound objects -/

/-- A function that refers to what is there. -/
structure FunctionRecord.Sound (heap : Heap) (record : FunctionRecord) : Prop where
  globals : heap.Holds (.dict record.globals)
  code : heap.Holds (.code record.code)
  closure : ∀ cell ∈ record.closure, heap.Holds (.cell cell)
  defaults : ∀ value ∈ record.defaults, heap.Holds value

theorem FunctionRecord.Sound.grow {older newer : Heap} (hgrows : older.GrowsTo newer)
    {record : FunctionRecord} (hsound : record.Sound older) : record.Sound newer where
  globals := hsound.globals.grow hgrows
  code := hsound.code.grow hgrows
  closure cell hcell := (hsound.closure cell hcell).grow hgrows
  defaults value hvalue := (hsound.defaults value hvalue).grow hgrows

/-- Whether an object refers to values that the heap holds. -/
def Object.Sound (heap : Heap) : Object → Prop
  | .list items => ∀ item ∈ items, heap.Holds item
  | .dict entries => heap.HoldsEntries entries
  | .cell content => ∀ value ∈ content, heap.Holds value
  | .iterator remaining => ∀ item ∈ remaining, heap.Holds item
  | .userClass record => heap.Holds (.dict record.namespaceDict)
  | .instanceOf cls attributes => heap.Holds (.userClass cls) ∧ heap.Holds (.dict attributes)
  | .function record => record.Sound heap
  | .method receiver callee => heap.Holds receiver ∧ heap.Holds callee
  | .code _ => True
  | .moduleObject _ namespaceDict => heap.Holds (.dict namespaceDict)
  | .exception _ => True

theorem Object.Sound.grow {older newer : Heap} (hgrows : older.GrowsTo newer) {object : Object}
    (hsound : object.Sound older) : object.Sound newer := by
  cases object with
  | list | cell | iterator => exact fun value hvalue ↦ (hsound value hvalue).grow hgrows
  | dict => exact Heap.HoldsEntries.grow hgrows hsound
  | userClass | moduleObject => exact Heap.Holds.grow hgrows hsound
  | instanceOf | method => exact ⟨hsound.1.grow hgrows, hsound.2.grow hgrows⟩
  | function => exact FunctionRecord.Sound.grow hgrows hsound
  | code | exception => trivial

namespace Heap

variable {heap older newer : Heap} {address : Address}

/-! ### Well-formed heaps -/

/-- A heap whose objects refer to held values and whose classes are a hierarchy. -/
structure WellFormed (heap : Heap) : Prop where
  sound : ∀ address object, heap.get? address = some object → object.Sound heap
  hierarchy : heap.Hierarchy

theorem wellFormed_empty : WellFormed empty where
  sound address object hobject := by simp [get?, empty] at hobject
  hierarchy address record hrecord := by simp [userClass?, get?, empty] at hrecord

/-- A heap stays well-formed when it grows by sound objects and by grounded classes. -/
theorem WellFormed.of_growsTo (hformed : older.WellFormed) (hgrows : older.GrowsTo newer)
    (hobjects : ∀ address object, newer.get? address = some object →
      older.get? address = some object ∨ object.Sound newer)
    (hclasses : ∀ address record, newer.userClass? address = some record →
      older.userClass? address = some record ∨ record.Grounded newer address) :
    newer.WellFormed where
  sound address object hobject := by
    rcases hobjects address object hobject with hold | hnew
    · exact (hformed.sound address object hold).grow hgrows
    · exact hnew
  hierarchy address record hrecord := by
    rcases hclasses address record hrecord with hold | hnew
    · exact (hformed.hierarchy address record hold).of_growsTo hgrows
    · exact hnew

theorem get?_allocate_cases {object other : Object}
    (hother : (heap.allocate object).get? address = some other) :
    address = heap.size ∧ other = object ∨ heap.get? address = some other := by
  rw [get?_allocate] at hother
  split at hother
  · rename_i hnew
    exact Or.inl ⟨hnew, (Option.some.inj hother).symm⟩
  · exact Or.inr hother

theorem get?_allocate_size (heap : Heap) (object : Object) :
    (heap.allocate object).get? heap.size = some object := by
  rw [get?_allocate, if_pos rfl]

/-- A new object that is no class. -/
theorem WellFormed.allocate (hformed : heap.WellFormed) {object : Object}
    (hsound : object.Sound heap) (hkind : ∀ record, object ≠ .userClass record) :
    (heap.allocate object).WellFormed := by
  have hgrows := heap.growsTo_allocate object
  refine hformed.of_growsTo hgrows (fun address other hother ↦ ?_) fun address record hrecord ↦ ?_
  · rcases get?_allocate_cases hother with ⟨-, rfl⟩ | hold
    · exact Or.inr (hsound.grow hgrows)
    · exact Or.inl hold
  · rcases get?_allocate_cases (userClass?_eq_some_iff.mp hrecord) with ⟨-, hnew⟩ | hold
    · exact absurd hnew.symm (hkind record)
    · exact Or.inl (userClass?_eq_some_iff.mpr hold)

/-- A new class. -/
theorem WellFormed.allocate_class (hformed : heap.WellFormed) {record : ClassRecord}
    (hdict : heap.Holds (.dict record.namespaceDict)) (hgrounded : record.Grounded heap heap.size) :
    (heap.allocate (.userClass record)).WellFormed := by
  have hgrows := heap.growsTo_allocate (.userClass record)
  refine hformed.of_growsTo hgrows (fun address other hother ↦ ?_) fun address other hother ↦ ?_
  · rcases get?_allocate_cases hother with ⟨-, rfl⟩ | hold
    · exact Or.inr (Holds.grow hgrows hdict)
    · exact Or.inl hold
  · rcases get?_allocate_cases (userClass?_eq_some_iff.mp hother) with ⟨rfl, hnew⟩ | hold
    · obtain rfl := Object.userClass.inj hnew
      exact Or.inr (hgrounded.of_growsTo hgrows)
    · exact Or.inl (userClass?_eq_some_iff.mpr hold)

/-- Other contents of a container. -/
theorem WellFormed.replace (hformed : heap.WellFormed) {old new : Object}
    (hold : heap.get? address = some old) (hbecomes : old.Becomes new) (hsound : new.Sound heap)
    (hkind : ∀ record, new ≠ .userClass record) : (heap.replace address new).WellFormed := by
  have hgrows := growsTo_replace hold hbecomes
  have hcases : ∀ other object, (heap.replace address new).get? other = some object →
      object = new ∨ heap.get? other = some object := by
    intro other object hobject
    rw [get?_replace] at hobject
    split at hobject
    · split at hobject
      · exact Or.inl (Option.some.inj hobject).symm
      · exact absurd hobject (by simp)
    · exact Or.inr hobject
  refine hformed.of_growsTo hgrows (fun other object hobject ↦ ?_) fun other record hrecord ↦ ?_
  · rcases hcases other object hobject with rfl | hsame
    · exact Or.inr (hsound.grow hgrows)
    · exact Or.inl hsame
  · rcases hcases other _ (userClass?_eq_some_iff.mp hrecord) with hnew | hsame
    · exact absurd hnew.symm (hkind record)
    · exact Or.inl (userClass?_eq_some_iff.mpr hsame)

/-! ### Entries -/

theorem mem_store {pair : String × Value} {key : String} {content : Value}
    {pairs : List (String × Value)} (hpair : pair ∈ Entries.store key content pairs) :
    pair.2 = content ∨ pair ∈ pairs := by
  induction pairs with
  | nil =>
    obtain rfl := List.mem_singleton.mp hpair
    exact Or.inl rfl
  | cons first rest ih =>
    unfold Entries.store at hpair
    split at hpair
    · rcases List.mem_cons.mp hpair with rfl | hrest
      · exact Or.inl rfl
      · exact Or.inr (List.mem_cons_of_mem _ hrest)
    · rcases List.mem_cons.mp hpair with rfl | hrest
      · exact Or.inr List.mem_cons_self
      · exact (ih hrest).imp_right (List.mem_cons_of_mem _)

@[simp] theorem holdsEntries_empty (heap : Heap) : heap.HoldsEntries .empty :=
  fun _ hpair ↦ absurd hpair List.not_mem_nil

theorem HoldsEntries.insert {entries : Entries Value} (hheld : heap.HoldsEntries entries)
    {content : Value} (hcontent : heap.Holds content) (key : String) :
    heap.HoldsEntries (entries.insert key content) := by
  intro pair hpair
  rcases mem_store hpair with hnew | hold
  · exact hnew ▸ hcontent
  · exact hheld pair hold

theorem HoldsEntries.erase {entries : Entries Value} (hheld : heap.HoldsEntries entries)
    (key : String) : heap.HoldsEntries (entries.erase key) :=
  fun pair hpair ↦ hheld pair (List.mem_of_mem_filter hpair)

theorem HoldsEntries.insertAll {entries : Entries Value} (hheld : heap.HoldsEntries entries)
    {pairs : List (String × Value)} (hpairs : ∀ pair ∈ pairs, heap.Holds pair.2) :
    heap.HoldsEntries (entries.insertAll pairs) := by
  unfold Entries.insertAll
  induction pairs generalizing entries with
  | nil => exact hheld
  | cons pair rest ih =>
    exact ih (hheld.insert (hpairs pair List.mem_cons_self) pair.1)
      fun other hother ↦ hpairs other (List.mem_cons_of_mem _ hother)

theorem holdsEntries_ofList {pairs : List (String × Value)}
    (hpairs : ∀ pair ∈ pairs, heap.Holds pair.2) : heap.HoldsEntries (.ofList pairs) :=
  heap.holdsEntries_empty.insertAll hpairs

theorem mem_of_lookup {Content : Type} {pairs : List (String × Content)} {key : String}
    {content : Content} (hfound : pairs.lookup key = some content) : (key, content) ∈ pairs := by
  obtain ⟨front, back, rfl, -⟩ := List.lookup_eq_some_iff.mp hfound
  exact List.mem_append_right front List.mem_cons_self

theorem HoldsEntries.find? {entries : Entries Value} (hheld : heap.HoldsEntries entries)
    {key : String} {value : Value} (hfound : entries.find? key = some value) :
    heap.Holds value :=
  hheld (key, value) (mem_of_lookup hfound)

/-! ### Reading in a well-formed heap -/

namespace WellFormed

theorem entries (hformed : heap.WellFormed) (address : Address) :
    heap.HoldsEntries (heap.entries address) := by
  unfold Heap.entries
  cases hentries : heap.dict? address with
  | none => exact heap.holdsEntries_empty
  | some entries => exact hformed.sound _ _ (dict?_eq_some_iff.mp hentries)

theorem items (hformed : heap.WellFormed) (address : Address) :
    ∀ item ∈ heap.items address, heap.Holds item := by
  unfold Heap.items
  cases hitems : heap.list? address with
  | none => exact fun item hitem ↦ absurd hitem List.not_mem_nil
  | some items => exact hformed.sound _ _ (list?_eq_some_iff.mp hitems)

theorem remaining (hformed : heap.WellFormed) (address : Address) :
    ∀ item ∈ heap.remaining address, heap.Holds item := by
  unfold Heap.remaining
  split
  · rename_i items hitems
    exact hformed.sound _ _ hitems
  · exact fun item hitem ↦ absurd hitem List.not_mem_nil

theorem cellContent? (hformed : heap.WellFormed) (address : Address) :
    ∀ value ∈ heap.cellContent? address, heap.Holds value := by
  intro value hvalue
  unfold Heap.cellContent? at hvalue
  cases hcell : heap.cell? address with
  | none => simp [hcell] at hvalue
  | some content =>
    have hsound := hformed.sound _ _ (cell?_eq_some_iff.mp hcell)
    exact hsound value (by simpa [hcell] using hvalue)

theorem function? (hformed : heap.WellFormed) {record : FunctionRecord}
    (hrecord : heap.function? address = some record) : record.Sound heap :=
  hformed.sound _ _ (function?_eq_some_iff.mp hrecord)

theorem method? (hformed : heap.WellFormed) {receiver function : Value}
    (hmethod : heap.method? address = some (receiver, function)) :
    heap.Holds receiver ∧ heap.Holds function :=
  hformed.sound _ _ (method?_eq_some_iff.mp hmethod)

theorem instance? (hformed : heap.WellFormed) {cls attributes : Address}
    (hinstance : heap.instance? address = some (cls, attributes)) :
    heap.Holds (.userClass cls) ∧ heap.Holds (.dict attributes) :=
  hformed.sound _ _ (instance?_eq_some_iff.mp hinstance)

theorem module? (hformed : heap.WellFormed) {name : String} {namespaceDict : Address}
    (hmodule : heap.module? address = some (name, namespaceDict)) :
    heap.Holds (.dict namespaceDict) :=
  hformed.sound _ _ (module?_eq_some_iff.mp hmodule)

theorem namespaceDict (hformed : heap.WellFormed) {record : ClassRecord}
    (hrecord : heap.userClass? address = some record) : heap.Holds (.dict record.namespaceDict) :=
  hformed.sound _ _ (userClass?_eq_some_iff.mp hrecord)

theorem hasClass_linearization (hformed : heap.WellFormed) {cls ancestor : ClassRef}
    (hcls : heap.HasClass cls) (hancestor : ancestor ∈ heap.linearization cls) :
    heap.HasClass ancestor :=
  (hformed.hierarchy.linear hcls).hasClass ancestor hancestor

/-- The type of a held value is there. -/
theorem hasClass_typeOf (hformed : heap.WellFormed) {value : Value} (hheld : heap.Holds value) :
    heap.HasClass (heap.typeOf value) := by
  cases value with
  | userClass address => exact hformed.hierarchy.hasClass_metaclassOf (.user address)
  | builtin builtin => cases builtin <;> trivial
  | object address =>
    cases hinstance : heap.instance? address with
    | none => simp only [typeOf, hinstance]; trivial
    | some pair =>
      simp only [typeOf, hinstance]
      exact holds_userClass.mp (hformed.instance? hinstance).1
  | exception address =>
    cases hexception : heap.exception? address <;> simp only [typeOf, hexception] <;> trivial
  | _ => trivial

/-- What the raw search for a name finds is held. -/
theorem lookupUser (hformed : heap.WellFormed) {name : String} {value : Value}
    (hfound : heap.lookupUser name address = some value) : heap.Holds value := by
  induction address using Nat.strongRecOn generalizing value with
  | ind address ih =>
    rw [Heap.lookupUser] at hfound
    cases hown : heap.ownAttribute? address name with
    | some own =>
      obtain rfl : own = value := by simpa [hown] using hfound
      unfold ownAttribute? at hown
      split at hown
      · exact (hformed.entries _).find? hown
      · simp at hown
    | none =>
      simp only [hown, Option.orElse_none] at hfound
      obtain ⟨ancestor, -, hancestor⟩ := List.exists_of_findSome?_eq_some hfound
      split at hancestor
      · split at hancestor
        · exact ih _ ‹_› hancestor
        · simp at hancestor
      · simp at hancestor

theorem lookup (hformed : heap.WellFormed) {name : String} {cls : ClassRef} {value : Value}
    (hfound : heap.lookup name cls = some value) : heap.Holds value := by
  cases cls with
  | native | exception => simp [Heap.lookup] at hfound
  | user address => exact hformed.lookupUser hfound

end WellFormed

end Heap

end Metaobject
