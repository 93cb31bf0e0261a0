import Metaobject.ClassGraph.Basic

/-!
# Growth of the heap

A heap grows to another one when every object keeps its place and its kind: lists, dicts, cells and
iterators may have other contents, and every other object is the same (`Object.Becomes`,
`Heap.GrowsTo`). Growth is a preorder, and extending a heap without changing what is there is a
case of it (`Heap.Extends`). What is fixed when an object is made reads the same in the
grown heap, in particular classes (`GrowsTo.userClass?`) and their linearizations, and subtyping
between them (`GrowsTo.isSubtype`).
-/

set_option autoImplicit false
set_option relaxedAutoImplicit false

namespace Metaobject

/-! ### Objects over time -/

/-- What an object may have become later on. -/
inductive Object.Becomes : Object → Object → Prop
  | list (old new : List Value) : Becomes (.list old) (.list new)
  | dict (old new : Entries Value) : Becomes (.dict old) (.dict new)
  | cell (old new : Option Value) : Becomes (.cell old) (.cell new)
  | iterator (old new : List Value) : Becomes (.iterator old) (.iterator new)
  | same (object : Object) : Becomes object object

theorem Object.Becomes.trans {first second third : Object} (hfirst : first.Becomes second)
    (hsecond : second.Becomes third) : first.Becomes third := by
  cases hfirst <;> first | exact hsecond | (cases hsecond <;> constructor)

namespace Heap

variable {heap older newer : Heap} {address : Address}

/-! ### What reading by kind says of the object -/

theorem lt_size_of_get? {object : Object} (hobject : heap.get? address = some object) :
    address < heap.size := by
  refine Nat.lt_of_not_le fun hunused ↦ ?_
  rw [(heap.get?_eq_none_iff address).mpr hunused] at hobject
  exact absurd hobject (by simp)

theorem list?_eq_some_iff {items : List Value} :
    heap.list? address = some items ↔ heap.get? address = some (.list items) := by
  unfold list?
  split <;> simp_all

theorem dict?_eq_some_iff {entries : Entries Value} :
    heap.dict? address = some entries ↔ heap.get? address = some (.dict entries) := by
  unfold dict?
  split <;> simp_all

theorem cell?_eq_some_iff {content : Option Value} :
    heap.cell? address = some content ↔ heap.get? address = some (.cell content) := by
  unfold cell?
  split <;> simp_all

theorem userClass?_eq_some_iff {record : ClassRecord} :
    heap.userClass? address = some record ↔ heap.get? address = some (.userClass record) := by
  unfold userClass?
  split <;> simp_all

theorem instance?_eq_some_iff {cls attributes : Address} :
    heap.instance? address = some (cls, attributes) ↔
      heap.get? address = some (.instanceOf cls attributes) := by
  unfold instance?
  split <;> simp_all

theorem function?_eq_some_iff {record : FunctionRecord} :
    heap.function? address = some record ↔ heap.get? address = some (.function record) := by
  unfold function?
  split <;> simp_all

theorem method?_eq_some_iff {receiver function : Value} :
    heap.method? address = some (receiver, function) ↔
      heap.get? address = some (.method receiver function) := by
  unfold method?
  split <;> simp_all

theorem code?_eq_some_iff {record : CodeRecord} :
    heap.code? address = some record ↔ heap.get? address = some (.code record) := by
  unfold code?
  split <;> simp_all

theorem module?_eq_some_iff {name : String} {namespaceDict : Address} :
    heap.module? address = some (name, namespaceDict) ↔
      heap.get? address = some (.moduleObject name namespaceDict) := by
  unfold module?
  split <;> simp_all

theorem exception?_eq_some_iff {exception : Exception} :
    heap.exception? address = some exception ↔
      heap.get? address = some (.exception exception) := by
  unfold exception?
  split <;> simp_all

/-! ### Growth -/

/-- Whether every object of a heap is still there, as what it may have become. -/
def GrowsTo (older newer : Heap) : Prop :=
  ∀ address object, older.get? address = some object →
    ∃ later, newer.get? address = some later ∧ object.Becomes later

namespace GrowsTo

theorem refl (heap : Heap) : heap.GrowsTo heap :=
  fun _ object hobject ↦ ⟨object, hobject, .same object⟩

theorem trans {first second third : Heap} (hfirst : first.GrowsTo second)
    (hsecond : second.GrowsTo third) : first.GrowsTo third := by
  intro address object hobject
  obtain ⟨middle, hmiddle, hbecomes⟩ := hfirst address object hobject
  obtain ⟨last, hlast, hlater⟩ := hsecond address middle hmiddle
  exact ⟨last, hlast, hbecomes.trans hlater⟩

/-- An object that is no container is still the same. -/
theorem get?_eq (hgrows : older.GrowsTo newer) {object : Object}
    (hobject : older.get? address = some object)
    (hfixed : ∀ later, object.Becomes later → later = object) :
    newer.get? address = some object := by
  obtain ⟨later, hlater, hbecomes⟩ := hgrows address object hobject
  rw [hlater, hfixed later hbecomes]

theorem userClass? (hgrows : older.GrowsTo newer) {record : ClassRecord}
    (hrecord : older.userClass? address = some record) :
    newer.userClass? address = some record := by
  rw [userClass?_eq_some_iff] at hrecord ⊢
  exact hgrows.get?_eq hrecord fun later hbecomes ↦ by cases hbecomes; rfl

theorem userClass?_isSome (hgrows : older.GrowsTo newer)
    (hclass : (older.userClass? address).isSome) : (newer.userClass? address).isSome := by
  obtain ⟨record, hrecord⟩ := Option.isSome_iff_exists.mp hclass
  exact Option.isSome_of_eq_some (hgrows.userClass? hrecord)

theorem instance? (hgrows : older.GrowsTo newer) {cls attributes : Address}
    (hinstance : older.instance? address = some (cls, attributes)) :
    newer.instance? address = some (cls, attributes) := by
  rw [instance?_eq_some_iff] at hinstance ⊢
  exact hgrows.get?_eq hinstance fun later hbecomes ↦ by cases hbecomes; rfl

theorem function? (hgrows : older.GrowsTo newer) {record : FunctionRecord}
    (hrecord : older.function? address = some record) : newer.function? address = some record := by
  rw [function?_eq_some_iff] at hrecord ⊢
  exact hgrows.get?_eq hrecord fun later hbecomes ↦ by cases hbecomes; rfl

theorem method? (hgrows : older.GrowsTo newer) {receiver function : Value}
    (hmethod : older.method? address = some (receiver, function)) :
    newer.method? address = some (receiver, function) := by
  rw [method?_eq_some_iff] at hmethod ⊢
  exact hgrows.get?_eq hmethod fun later hbecomes ↦ by cases hbecomes; rfl

theorem code? (hgrows : older.GrowsTo newer) {record : CodeRecord}
    (hrecord : older.code? address = some record) : newer.code? address = some record := by
  rw [code?_eq_some_iff] at hrecord ⊢
  exact hgrows.get?_eq hrecord fun later hbecomes ↦ by cases hbecomes; rfl

theorem module? (hgrows : older.GrowsTo newer) {name : String} {namespaceDict : Address}
    (hmodule : older.module? address = some (name, namespaceDict)) :
    newer.module? address = some (name, namespaceDict) := by
  rw [module?_eq_some_iff] at hmodule ⊢
  exact hgrows.get?_eq hmodule fun later hbecomes ↦ by cases hbecomes; rfl

theorem exception? (hgrows : older.GrowsTo newer) {exception : Exception}
    (hexception : older.exception? address = some exception) :
    newer.exception? address = some exception := by
  rw [exception?_eq_some_iff] at hexception ⊢
  exact hgrows.get?_eq hexception fun later hbecomes ↦ by cases hbecomes; rfl

theorem list?_isSome (hgrows : older.GrowsTo newer) (hlist : (older.list? address).isSome) :
    (newer.list? address).isSome := by
  obtain ⟨items, hitems⟩ := Option.isSome_iff_exists.mp hlist
  obtain ⟨later, hlater, hbecomes⟩ := hgrows _ _ (list?_eq_some_iff.mp hitems)
  cases hbecomes <;> exact Option.isSome_iff_exists.mpr ⟨_, list?_eq_some_iff.mpr hlater⟩

theorem dict?_isSome (hgrows : older.GrowsTo newer) (hdict : (older.dict? address).isSome) :
    (newer.dict? address).isSome := by
  obtain ⟨entries, hentries⟩ := Option.isSome_iff_exists.mp hdict
  obtain ⟨later, hlater, hbecomes⟩ := hgrows _ _ (dict?_eq_some_iff.mp hentries)
  cases hbecomes <;> exact Option.isSome_iff_exists.mpr ⟨_, dict?_eq_some_iff.mpr hlater⟩

theorem cell?_isSome (hgrows : older.GrowsTo newer) (hcell : (older.cell? address).isSome) :
    (newer.cell? address).isSome := by
  obtain ⟨content, hcontent⟩ := Option.isSome_iff_exists.mp hcell
  obtain ⟨later, hlater, hbecomes⟩ := hgrows _ _ (cell?_eq_some_iff.mp hcontent)
  cases hbecomes <;> exact Option.isSome_iff_exists.mpr ⟨_, cell?_eq_some_iff.mpr hlater⟩

end GrowsTo

/-! ### Extension -/

/-- Whether the objects of a heap are all there unchanged. -/
def Extends (older newer : Heap) : Prop :=
  ∀ address object, older.get? address = some object → newer.get? address = some object

theorem Extends.refl (heap : Heap) : heap.Extends heap :=
  fun _ _ hobject ↦ hobject

theorem Extends.growsTo (hextends : older.Extends newer) : older.GrowsTo newer :=
  fun address object hobject ↦ ⟨object, hextends address object hobject, .same object⟩

theorem extends_allocate (heap : Heap) (object : Object) : heap.Extends (heap.allocate object) := by
  intro address other hother
  rw [get?_allocate, if_neg (Nat.ne_of_lt (lt_size_of_get? hother))]
  exact hother

/-! ### Growing steps -/

theorem growsTo_allocate (heap : Heap) (object : Object) :
    heap.GrowsTo (heap.allocate object) :=
  (heap.extends_allocate object).growsTo

theorem growsTo_replace {old new : Object} (hold : heap.get? address = some old)
    (hbecomes : old.Becomes new) : heap.GrowsTo (heap.replace address new) := by
  intro other object hobject
  by_cases hsame : address = other
  · subst hsame
    obtain rfl : old = object := Option.some.inj (hold.symm.trans hobject)
    exact ⟨new, by rw [get?_replace, if_pos rfl, if_pos (lt_size_of_get? hold)], hbecomes⟩
  · exact ⟨object, by rw [get?_replace, if_neg hsame, hobject], .same object⟩

theorem growsTo_updateDict (heap : Heap) (address : Address)
    (change : Entries Value → Entries Value) : heap.GrowsTo (heap.updateDict address change) := by
  unfold updateDict
  split
  · rename_i entries hentries
    exact growsTo_replace (dict?_eq_some_iff.mp hentries) (.dict entries (change entries))
  · exact .refl heap

theorem growsTo_setCell (heap : Heap) (address : Address) (content : Value) :
    heap.GrowsTo (heap.setCell address content) := by
  unfold setCell
  split
  · rename_i old hold
    exact growsTo_replace (cell?_eq_some_iff.mp hold) (.cell old (some content))
  · exact .refl heap

theorem cell?_setCell {content : Option Value} (hcell : heap.cell? address = some content)
    (value : Value) : (heap.setCell address value).cell? address = some (some value) := by
  have hused := lt_size_of_get? (cell?_eq_some_iff.mp hcell)
  rw [cell?_eq_some_iff, setCell, hcell, get?_replace, if_pos rfl, if_pos hused]

theorem get?_setCell {other : Address} (hne : address ≠ other) (value : Value) :
    (heap.setCell address value).get? other = heap.get? other := by
  unfold setCell
  split
  · rw [get?_replace, if_neg hne]
  · rfl

theorem growsTo_append (heap : Heap) (address : Address) (item : Value) :
    heap.GrowsTo (heap.append address item) := by
  unfold append
  split
  · rename_i items hitems
    exact growsTo_replace (list?_eq_some_iff.mp hitems) (.list items (items ++ [item]))
  · exact .refl heap

theorem growsTo_advance (heap : Heap) (address : Address) (remaining : List Value) :
    heap.GrowsTo (heap.advance address remaining) := by
  unfold advance
  split
  · rename_i old hold
    exact growsTo_replace hold (.iterator old remaining)
  · exact .refl heap

/-! ### Classes in a grown heap -/

/-- Whether a class is there: native types and exception classes always are. -/
def HasClass (heap : Heap) : ClassRef → Prop
  | .user address => (heap.userClass? address).isSome
  | _ => True

@[simp] theorem hasClass_user :
    heap.HasClass (.user address) ↔ (heap.userClass? address).isSome := Iff.rfl

@[simp] theorem hasClass_native (kind : NativeType) : heap.HasClass (.native kind) := trivial

@[simp] theorem hasClass_exception (cls : ExceptionClass) : heap.HasClass (.exception cls) :=
  trivial

/-- What subtyping of a class built at run time looks at. -/
theorem isSubtype_user (heap : Heap) (address : Address) (other : ClassRef) :
    heap.isSubtype (.user address) other =
      (other == .native .object || .user address == other ||
        (heap.storedLinearization address).contains other) := by
  cases other with
  | native kind => cases kind <;> rfl
  | exception | user => rfl

namespace GrowsTo

theorem hasClass (hgrows : older.GrowsTo newer) {cls : ClassRef} (hcls : older.HasClass cls) :
    newer.HasClass cls := by
  cases cls with
  | native | exception => trivial
  | user address => exact hgrows.userClass?_isSome hcls

theorem userClass?_eq (hgrows : older.GrowsTo newer) (hcls : (older.userClass? address).isSome) :
    newer.userClass? address = older.userClass? address := by
  obtain ⟨record, hrecord⟩ := Option.isSome_iff_exists.mp hcls
  rw [hrecord, hgrows.userClass? hrecord]

theorem linearization (hgrows : older.GrowsTo newer) {cls : ClassRef}
    (hcls : older.HasClass cls) : newer.linearization cls = older.linearization cls := by
  cases cls with
  | native | exception => rfl
  | user address =>
    simp only [Heap.linearization, storedLinearization, hgrows.userClass?_eq hcls]

theorem isSubtype (hgrows : older.GrowsTo newer) {cls : ClassRef} (hcls : older.HasClass cls)
    (other : ClassRef) : newer.isSubtype cls other = older.isSubtype cls other := by
  cases cls with
  | native | exception =>
    cases other with
    | native kind => cases kind <;> rfl
    | exception | user => rfl
  | user address =>
    have hstored : newer.storedLinearization address = older.storedLinearization address := by
      simp only [storedLinearization, hgrows.userClass?_eq hcls]
    simp only [isSubtype_user, hstored]

theorem metaclassOf (hgrows : older.GrowsTo newer) {cls : ClassRef} (hcls : older.HasClass cls) :
    newer.metaclassOf cls = older.metaclassOf cls := by
  cases cls with
  | native | exception => rfl
  | user address => simp only [Heap.metaclassOf, hgrows.userClass?_eq hcls]

end GrowsTo

end Heap

end Metaobject
