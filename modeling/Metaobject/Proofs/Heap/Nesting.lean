import Mathlib.Data.Finset.Card
import Mathlib.Data.Finset.Range
import Mathlib.Logic.Relation
import Metaobject.Proofs.Heap.Integers
import Metaobject.Value.Written

/-!
# Values that do not contain themselves

Equality and the written form descend through lists, dicts and methods and take as many steps down
as the heap has objects. That is all they need for a value in which nothing contains itself
(`Heap.Unfolds`): a container is not found in its own parts, so with every container that is passed
fewer are left to be found (`Unfolds.card_containersIn_lt`, `Unfolds.induction`). More steps give
the same equality (`Unfolds.agreeOn`), and equality is its own next level
(`Unfolds.agreeOn_equal`).

In a well-formed heap in which no value contains itself (`Heap.Acyclic`) this holds of all values
that the heap holds: they nest at most as deep as there are objects (`WellFormed.nestsWithin`), and
more steps change nothing (`WellFormed.writtenWithin_eq`, `WellFormed.equalWithin_eq`).
-/

set_option autoImplicit false
set_option relaxedAutoImplicit false

namespace Metaobject

/-- The address of a list, a dict or a method: what a descent takes a step down for. -/
def Value.container? : Value → Option Address
  | .list address => some address
  | .dict address => some address
  | .method address => some address
  | _ => none

/-- Whether a value is no tuple and no container. -/
def Value.isAtom : Value → Bool
  | .tuple _ | .list _ | .dict _ | .method _ => false
  | _ => true

theorem Value.container?_of_isAtom {value : Value} (hatom : value.isAtom) :
    value.container? = none := by
  cases value <;> first | rfl | cases hatom

namespace Heap

/-! ### Parts -/

/-- What a value consists of, one level down. -/
def parts (heap : Heap) : Value → List Value
  | .tuple items => items
  | .list address => heap.items address
  | .dict address => (heap.entries address).toList.map Prod.snd
  | .method address => match heap.method? address with
    | some (receiver, function) => [receiver, function]
    | none => []
  | _ => []

/-- Whether a value has another one directly in it. -/
def Encloses (heap : Heap) (whole part : Value) : Prop := part ∈ heap.parts whole

/-- Whether no value contains itself, directly or through what it contains. -/
def Acyclic (heap : Heap) : Prop := ∀ value, ¬Relation.TransGen heap.Encloses value value

/-- Whether lists, dicts and methods are at most `steps` deep in a value. -/
inductive NestsWithin (heap : Heap) : Nat → Value → Prop
  | inline {steps : Nat} {value : Value} (hinline : value.container? = none)
      (hparts : ∀ part ∈ heap.parts value, NestsWithin heap steps part) :
      NestsWithin heap steps value
  | container {steps : Nat} {value : Value} {address : Address}
      (hcontainer : value.container? = some address)
      (hparts : ∀ part ∈ heap.parts value, NestsWithin heap steps part) :
      NestsWithin heap (steps + 1) value

variable {heap : Heap} {value : Value} {address : Address} {steps : Nat}

theorem parts_of_isAtom (hatom : value.isAtom) : heap.parts value = [] := by
  cases value <;> first | rfl | cases hatom

theorem WellFormed.holds_parts (hformed : heap.WellFormed) (hheld : heap.Holds value) :
    ∀ part ∈ heap.parts value, heap.Holds part := by
  intro part hpart
  cases hheld with
  | tuple items hitems => exact hitems part hpart
  | list address => exact hformed.items address part hpart
  | dict address =>
    obtain ⟨pair, hpair, rfl⟩ := List.mem_map.mp hpart
    exact hformed.entries address pair hpair
  | method address hmethod =>
    obtain ⟨⟨receiver, function⟩, hfound⟩ := Option.isSome_iff_exists.mp hmethod
    obtain ⟨hreceiver, hfunction⟩ := hformed.method? hfound
    simp only [parts, hfound, List.mem_pair] at hpart
    rcases hpart with rfl | rfl
    · exact hreceiver
    · exact hfunction
  | _ => cases hpart

/-- The container at an address. -/
def containerAt? (heap : Heap) (address : Address) : Option Value :=
  match heap.get? address with
  | some (.list _) => some (.list address)
  | some (.dict _) => some (.dict address)
  | some (.method _ _) => some (.method address)
  | _ => none

/-- The parts of a container are in the object at its address. -/
theorem exists_object_of_mem_parts (hcontainer : value.container? = some address) {part : Value}
    (hpart : part ∈ heap.parts value) :
    ∃ object, heap.get? address = some object ∧ part ∈ object.values := by
  cases value with
  | list place =>
    obtain rfl : place = address := Option.some.inj hcontainer
    cases hlist : heap.list? place with
    | none => simp [parts, items, hlist] at hpart
    | some items =>
      simp only [parts, Heap.items, hlist, Option.getD_some] at hpart
      exact ⟨.list items, list?_eq_some_iff.mp hlist, hpart⟩
  | dict place =>
    obtain rfl : place = address := Option.some.inj hcontainer
    cases hdict : heap.dict? place with
    | none => simp [parts, entries, hdict, Entries.empty] at hpart
    | some entries =>
      simp only [parts, Heap.entries, hdict, Option.getD_some] at hpart
      exact ⟨.dict entries, dict?_eq_some_iff.mp hdict, hpart⟩
  | method place =>
    obtain rfl : place = address := Option.some.inj hcontainer
    cases hmethod : heap.method? place with
    | none => simp [parts, hmethod] at hpart
    | some pair =>
      simp only [parts, hmethod] at hpart
      exact ⟨.method pair.1 pair.2, method?_eq_some_iff.mp hmethod, hpart⟩
  | _ => cases hcontainer

/-- The kind of the object at its address says which container a held value is. -/
theorem Holds.containerAt?_eq (hheld : heap.Holds value)
    (hcontainer : value.container? = some address) : heap.containerAt? address = some value := by
  cases hheld with
  | list _ hlist =>
    obtain rfl := Option.some.inj hcontainer
    obtain ⟨items, hfound⟩ := Option.isSome_iff_exists.mp hlist
    rw [containerAt?, list?_eq_some_iff.mp hfound]
  | dict _ hdict =>
    obtain rfl := Option.some.inj hcontainer
    obtain ⟨entries, hfound⟩ := Option.isSome_iff_exists.mp hdict
    rw [containerAt?, dict?_eq_some_iff.mp hfound]
  | method _ hmethod =>
    obtain rfl := Option.some.inj hcontainer
    obtain ⟨⟨receiver, function⟩, hfound⟩ := Option.isSome_iff_exists.mp hmethod
    rw [containerAt?, method?_eq_some_iff.mp hfound]
  | _ => cases hcontainer

theorem container?_of_containerAt? (hat : heap.containerAt? address = some value) :
    value.container? = some address := by
  rw [containerAt?] at hat
  split at hat <;> cases hat <;> rfl

theorem lt_size_of_containerAt? (hcontainer : heap.containerAt? address = some value) :
    address < heap.size := by
  by_contra hbeyond
  rw [containerAt?, (heap.get?_eq_none_iff address).mpr (Nat.le_of_not_lt hbeyond)] at hcontainer
  cases hcontainer

/-! ### Unfolding values -/

section

/-- Whether a value is among the parts of another one that are followed. -/
def Follows (follow : Value → List Value) (whole part : Value) : Prop := part ∈ follow whole

/-- Whether a value unfolds along the parts that are followed: the containers found in it are in the
heap, and nothing found in it contains itself. -/
structure Unfolds (heap : Heap) (follow : Value → List Value) (value : Value) : Prop where
  placed : ∀ part, Relation.ReflTransGen (Follows follow) value part →
    ∀ address, part.container? = some address → heap.containerAt? address = some part
  acyclic : ∀ part, Relation.ReflTransGen (Follows follow) value part →
    ¬Relation.TransGen (Follows follow) part part

/-- The addresses of the containers found in a value. -/
noncomputable def containersIn (heap : Heap) (follow : Value → List Value) (value : Value) :
    Finset Address :=
  open Classical in (Finset.range heap.size).filter fun address ↦ ∃ container,
    Relation.ReflTransGen (Follows follow) value container ∧ container.container? = some address

variable {follow : Value → List Value} {part : Value}

theorem mem_containersIn : address ∈ heap.containersIn follow value ↔ address < heap.size ∧
    ∃ container, Relation.ReflTransGen (Follows follow) value container ∧
      container.container? = some address := by
  classical
  rw [containersIn, Finset.mem_filter, Finset.mem_range]

theorem card_containersIn_le (heap : Heap) (follow : Value → List Value) (value : Value) :
    (heap.containersIn follow value).card ≤ heap.size := by
  classical
  exact (Finset.card_filter_le _ _).trans_eq (Finset.card_range heap.size)

namespace Unfolds

theorem of_mem (hunfolds : heap.Unfolds follow value) (hpart : part ∈ follow value) :
    heap.Unfolds follow part where
  placed other hother := hunfolds.placed other (.head hpart hother)
  acyclic other hother := hunfolds.acyclic other (.head hpart hother)

/-- A value unfolds when its parts do: were it found in one of them, that part would contain
itself. -/
theorem of_parts
    (hplaced : ∀ address, value.container? = some address → heap.containerAt? address = some value)
    (hparts : ∀ part ∈ follow value, heap.Unfolds follow part) : heap.Unfolds follow value where
  placed other hother := by
    rcases hother.cases_head with rfl | ⟨part, hpart, hother⟩
    · exact hplaced
    · exact (hparts part hpart).placed other hother
  acyclic other hother hcycle := by
    rcases hother.cases_head with rfl | ⟨part, hpart, hother⟩
    · obtain ⟨part, hpart, hback⟩ := Relation.TransGen.head'_iff.mp hcycle
      exact (hparts part hpart).acyclic part .refl (.tail' hback hpart)
    · exact (hparts part hpart).acyclic other hother hcycle

theorem of_isAtom (hatom : value.isAtom) : heap.Unfolds heap.parts value := by
  refine .of_parts (fun address hcontainer ↦ ?_) fun part hpart ↦ ?_
  · rw [Value.container?_of_isAtom hatom] at hcontainer
    cases hcontainer
  · rw [parts_of_isAtom hatom] at hpart
    cases hpart

theorem containersIn_subset (hpart : part ∈ follow value) :
    heap.containersIn follow part ⊆ heap.containersIn follow value := by
  intro address hmem
  obtain ⟨hbelow, container, hfound, hcontainer⟩ := mem_containersIn.mp hmem
  exact mem_containersIn.mpr ⟨hbelow, container, .head hpart hfound, hcontainer⟩

theorem mem_containersIn_self (hunfolds : heap.Unfolds follow value)
    (hcontainer : value.container? = some address) : address ∈ heap.containersIn follow value :=
  mem_containersIn.mpr ⟨lt_size_of_containerAt? (hunfolds.placed value .refl address hcontainer),
    value, .refl, hcontainer⟩

/-- A container is not found in its parts: the kind of the object at its address would make what is
found the container itself. -/
theorem card_containersIn_lt (hunfolds : heap.Unfolds follow value)
    (hcontainer : value.container? = some address) (hpart : part ∈ follow value) :
    (heap.containersIn follow part).card < (heap.containersIn follow value).card := by
  refine Finset.card_lt_card ⟨containersIn_subset hpart, fun hsubset ↦ ?_⟩
  obtain ⟨-, found, hfound, hsame⟩ :=
    mem_containersIn.mp (hsubset (hunfolds.mem_containersIn_self hcontainer))
  have hat := (hunfolds.of_mem hpart).placed found hfound address hsame
  obtain rfl : found = value :=
    Option.some.inj (hat.symm.trans (hunfolds.placed value .refl address hcontainer))
  exact hunfolds.acyclic found .refl (.head' hpart hfound)

end Unfolds

theorem sizeOf_lt_of_mem_parts (hinline : value.container? = none)
    (hpart : part ∈ heap.parts value) : sizeOf part < sizeOf value := by
  cases value with
  | tuple items =>
    have hless : sizeOf part < sizeOf items := List.sizeOf_lt_of_mem hpart
    simp only [Value.tuple.sizeOf_spec]
    omega
  | list | dict | method => cases hinline
  | _ => cases hpart

/-- Induction on values that unfold, with the steps that are left to go down. Only containers take a
step; the parts of other values are smaller. -/
theorem Unfolds.induction {motive : Nat → Value → Prop}
    (hfollow : ∀ value, follow value ⊆ heap.parts value)
    (hinline : ∀ steps value, heap.Unfolds follow value → value.container? = none →
      (∀ part ∈ follow value, motive steps part) → motive steps value)
    (hcontainer : ∀ steps value address, heap.Unfolds follow value →
      value.container? = some address → (∀ part ∈ follow value, motive steps part) →
        motive (steps + 1) value)
    {steps : Nat} {value : Value} (hunfolds : heap.Unfolds follow value)
    (hsteps : (heap.containersIn follow value).card ≤ steps) : motive steps value := by
  cases hkind : value.container? with
  | none =>
    refine hinline steps value hunfolds hkind fun part hpart ↦ ?_
    have hsmaller := sizeOf_lt_of_mem_parts hkind (hfollow value hpart)
    have hfewer : (heap.containersIn follow part).card ≤ (heap.containersIn follow value).card :=
      Finset.card_le_card (Unfolds.containersIn_subset hpart)
    exact Unfolds.induction hfollow hinline hcontainer (hunfolds.of_mem hpart)
      (hfewer.trans hsteps)
  | some address =>
    have hroom := Finset.card_pos.mpr ⟨address, hunfolds.mem_containersIn_self hkind⟩
    obtain ⟨fewer, rfl⟩ : ∃ fewer, steps = fewer + 1 := ⟨steps - 1, by omega⟩
    refine hcontainer fewer value address hunfolds hkind fun part hpart ↦ ?_
    have hless := hunfolds.card_containersIn_lt hkind hpart
    exact Unfolds.induction hfollow hinline hcontainer (hunfolds.of_mem hpart) (by omega)
termination_by (steps, sizeOf value)

/-- A value that unfolds nests at most as deep as there are objects. -/
theorem Unfolds.nestsWithin (hunfolds : heap.Unfolds heap.parts value) :
    heap.NestsWithin heap.size value :=
  hunfolds.induction (fun _ ↦ List.Subset.refl _) (fun _ _ _ ↦ .inline) (fun _ _ _ _ ↦ .container)
    (heap.card_containersIn_le heap.parts value)

/-- In a well-formed heap it is enough that a value is held itself. -/
theorem WellFormed.unfolds (hformed : heap.WellFormed) (hheld : heap.Holds value)
    (hfollow : ∀ value, follow value ⊆ heap.parts value)
    (hacyclic : ∀ part, Relation.ReflTransGen (Follows follow) value part →
      ¬Relation.TransGen (Follows follow) part part) : heap.Unfolds follow value where
  placed part hpart := by
    have hheld : heap.Holds part := by
      induction hpart with
      | refl => exact hheld
      | tail _ hlast ih => exact hformed.holds_parts ih _ (hfollow _ hlast)
    exact fun _ ↦ hheld.containerAt?_eq
  acyclic := hacyclic

end

/-- In a heap without values that contain themselves every value nests at most as deep as there are
objects. -/
theorem WellFormed.nestsWithin (hformed : heap.WellFormed) (hacyclic : heap.Acyclic)
    (hheld : heap.Holds value) : heap.NestsWithin heap.size value :=
  have hunfolds : heap.Unfolds heap.parts value :=
    hformed.unfolds hheld (fun _ ↦ List.Subset.refl _) fun part _ ↦ hacyclic part
  hunfolds.nestsWithin

/-! ### Heaps without containers in containers -/

/-- Values that are ranked above their parts do not contain themselves. -/
theorem acyclic_of_rank (rank : Value → Nat)
    (hrank : ∀ whole, ∀ part ∈ heap.parts whole, rank part < rank whole) : heap.Acyclic := by
  have hbelow {whole part : Value} (hencloses : Relation.TransGen heap.Encloses whole part) :
      rank part < rank whole := by
    induction hencloses with
    | single hpart => exact hrank whole _ hpart
    | tail _ hpart ih => exact (hrank _ _ hpart).trans ih
  exact fun value hencloses ↦ Nat.lt_irrefl _ (hbelow hencloses)

/-- If no object has a tuple or a container in it, no value contains itself. -/
theorem acyclic_of_atoms
    (hatoms : ∀ object ∈ heap.objects.toList, ∀ value ∈ object.values, value.isAtom = true) :
    heap.Acyclic := by
  let rank (value : Value) : Nat :=
    if value.isAtom then 0 else if value.container?.isSome then 1 else sizeOf value + 2
  refine acyclic_of_rank rank fun whole part hpart ↦ ?_
  cases hcontainer : whole.container? with
  | some address =>
    obtain ⟨object, hobject, hvalue⟩ := exists_object_of_mem_parts hcontainer hpart
    have hmem : object ∈ heap.objects.toList :=
      Array.mem_toList_iff.mpr (Array.mem_of_getElem? hobject)
    have hwhole : rank whole = 1 := by
      cases whole <;> first | rfl | cases hcontainer
    have hatom : rank part = 0 := if_pos (hatoms object hmem part hvalue)
    omega
  | none =>
    cases whole with
    | tuple items =>
      have hsize : sizeOf part < sizeOf items := List.sizeOf_lt_of_mem hpart
      have hpart : rank part ≤ sizeOf part + 2 := by
        simp only [rank]
        split_ifs <;> omega
      have hwhole : rank (.tuple items) = 1 + sizeOf items + 2 := by
        simp [rank, Value.isAtom, Value.container?]
      omega
    | list | dict | method => cases hcontainer
    | _ => cases hpart

/-! ### The written form -/

theorem writtenItems_eq_map (heap : Heap) (contents : Value → String) (items : List Value) :
    heap.writtenItems contents items = items.map (heap.writtenOver contents) := by
  induction items with
  | nil => rfl
  | cons item rest ih => rw [writtenItems, ih, List.map_cons]

theorem writtenOver_congr {contents other : Value → String} (hinline : value.container? = none)
    (hparts : ∀ part ∈ heap.parts value,
      heap.writtenOver contents part = heap.writtenOver other part) :
    heap.writtenOver contents value = heap.writtenOver other value := by
  cases value with
  | tuple items =>
    have hitems : items.map (heap.writtenOver contents) = items.map (heap.writtenOver other) :=
      List.map_congr_left hparts
    rw [writtenOver, writtenOver, writtenItems_eq_map, writtenItems_eq_map, hitems]
  | list | dict | method => cases hinline
  | bool truth => cases truth <;> rfl
  | _ => rfl

theorem writtenContents_congr {write other : Value → String}
    (hparts : ∀ part ∈ heap.parts value, write part = other part) :
    heap.writtenContents write value = heap.writtenContents other value := by
  cases value with
  | list address =>
    have hitems : (heap.items address).map write = (heap.items address).map other :=
      List.map_congr_left hparts
    rw [writtenContents, writtenContents, hitems]
  | dict address =>
    have hpairs : ∀ pair ∈ (heap.entries address).toList,
        (pair.1, write pair.2) = (pair.1, other pair.2) := fun pair hpair ↦ by
      rw [hparts pair.2 (List.mem_map_of_mem hpair)]
    rw [writtenContents, writtenContents, List.map_congr_left hpairs]
  | method address =>
    rw [writtenContents, writtenContents]
    cases hmethod : heap.method? address with
    | none => rfl
    | some pair =>
      obtain ⟨receiver, function⟩ := pair
      have hreceiver : write receiver = other receiver := hparts receiver (by simp [parts, hmethod])
      have hfunction : write function = other function := hparts function (by simp [parts, hmethod])
      cases function <;> simp only [hreceiver, hfunction]
  | _ => rfl

/-- Steps beyond the depth of a value change nothing in its written form. -/
theorem NestsWithin.writtenWithin_eq (hnests : heap.NestsWithin steps value) {more : Nat}
    (hmore : steps ≤ more) : heap.writtenWithin more value = heap.writtenWithin steps value := by
  induction hnests generalizing more with
  | @inline steps value hinline _ ih =>
    cases more <;> cases steps <;>
      exact writtenOver_congr hinline fun part hpart ↦ ih part hpart hmore
  | @container steps value address hcontainer _ ih =>
    obtain ⟨more, rfl⟩ : ∃ fewer, more = fewer + 1 := ⟨more - 1, by omega⟩
    have hparts : heap.writtenContents (heap.writtenWithin more) value =
        heap.writtenContents (heap.writtenWithin steps) value :=
      writtenContents_congr fun part hpart ↦ ih part hpart (Nat.le_of_succ_le_succ hmore)
    cases value with
    | list | dict | method => exact hparts
    | _ => cases hcontainer

/-- The written form of a value that unfolds goes down one level and is then the written form
again. -/
theorem Unfolds.writtenOver_eq (hunfolds : heap.Unfolds heap.parts value) :
    heap.writtenOver (heap.writtenContents heap.written) value = heap.written value :=
  hunfolds.nestsWithin.writtenWithin_eq (Nat.le_succ _)

/-! ### Equality -/

/-- Whether two equalities agree on a value, on whichever side it stands: the entries of dicts are
compared the other way round. -/
def AgreeOn (equal other : Value → Value → Bool) (value : Value) : Prop :=
  ∀ right, equal value right = other value right ∧ equal right value = other right value

section

variable {equal other : Value → Value → Bool}

theorem equalItems_eq_isEqv (lefts rights : List Value) :
    equalItems equal lefts rights = lefts.isEqv rights (equalOver equal) := by
  induction lefts generalizing rights with
  | nil => cases rights <;> rfl
  | cons left lefts ih =>
    cases rights with
    | nil => rfl
    | cons right rights => rw [equalItems, List.isEqv, ih]

theorem isEqv_congr {items : List Value} (hitems : ∀ item ∈ items, AgreeOn equal other item)
    (rights : List Value) :
    items.isEqv rights equal = items.isEqv rights other ∧
      rights.isEqv items equal = rights.isEqv items other := by
  induction items generalizing rights with
  | nil => cases rights <;> exact ⟨rfl, rfl⟩
  | cons item items ih =>
    cases rights with
    | nil => exact ⟨rfl, rfl⟩
    | cons right rights =>
      obtain ⟨hleft, hright⟩ := hitems item List.mem_cons_self right
      obtain ⟨hlefts, hrights⟩ :=
        ih (fun item hitem ↦ hitems item (List.mem_cons_of_mem _ hitem)) rights
      constructor
      · rw [List.isEqv, List.isEqv, hleft, hlefts]
      · rw [List.isEqv, List.isEqv, hright, hrights]

theorem equalOver_congr (hinline : value.container? = none)
    (hparts : ∀ part ∈ heap.parts value, AgreeOn (equalOver equal) (equalOver other) part) :
    AgreeOn (equalOver equal) (equalOver other) value := by
  intro right
  cases value with
  | tuple items =>
    cases right with
    | tuple rights =>
      simp only [equalOver, equalItems_eq_isEqv]
      exact isEqv_congr hparts rights
    | _ => exact ⟨rfl, rfl⟩
  | list | dict | method => cases hinline
  | _ => cases right <;> exact ⟨rfl, rfl⟩

/-- Which entries are compared is decided by the keys. -/
theorem equalEntries_congr {lefts rights : Entries Value}
    (hsame : ∀ pair ∈ lefts.toList, ∀ content, rights.find? pair.1 = some content →
      equal content pair.2 = other content pair.2) :
    equalEntries equal lefts rights = equalEntries other lefts rights := by
  rw [equalEntries, equalEntries]
  congr 1
  rw [Bool.eq_iff_iff, List.all_eq_true, List.all_eq_true]
  refine forall₂_congr ?_
  rintro ⟨key, content⟩ hpair
  cases hfound : rights.find? key with
  | none => simp only [hfound]
  | some found => simp only [hfound, hsame (key, content) hpair found hfound]

theorem equalContents_congr (hparts : ∀ part ∈ heap.parts value, AgreeOn equal other part)
    (right : Value) :
    heap.equalContents equal value right = heap.equalContents other value right ∧
      heap.equalContents equal right value = heap.equalContents other right value := by
  cases value with
  | list address =>
    cases right with
    | list right => exact isEqv_congr hparts (heap.items right)
    | _ => exact ⟨rfl, rfl⟩
  | dict address =>
    cases right with
    | dict right =>
      refine ⟨equalEntries_congr fun pair hpair content _ ↦ ?_,
        equalEntries_congr fun pair _ content hfound ↦ ?_⟩
      · exact (hparts pair.2 (List.mem_map_of_mem hpair) content).2
      · exact (hparts content (List.mem_map_of_mem (mem_of_lookup hfound)) pair.2).1
    | _ => exact ⟨rfl, rfl⟩
  | _ => cases right <;> exact ⟨rfl, rfl⟩

theorem equalOver_congr_contents {address : Address} (hcontainer : value.container? = some address)
    (hcontents : AgreeOn equal other value) :
    AgreeOn (equalOver equal) (equalOver other) value := by
  intro right
  obtain ⟨hleft, hright⟩ := hcontents right
  cases value with
  | list left =>
    cases right with
    | list right =>
      exact ⟨congrArg (left == right || ·) hleft, congrArg (right == left || ·) hright⟩
    | _ => exact ⟨rfl, rfl⟩
  | dict left =>
    cases right with
    | dict right =>
      exact ⟨congrArg (left == right || ·) hleft, congrArg (right == left || ·) hright⟩
    | _ => exact ⟨rfl, rfl⟩
  | method left => cases right <;> exact ⟨rfl, rfl⟩
  | _ => cases hcontainer

end

/-- What equality looks at in a value, one level down. Methods are compared as objects. -/
def comparedParts (heap : Heap) : Value → List Value
  | .method _ => []
  | value => heap.parts value

theorem comparedParts_subset (heap : Heap) (value : Value) :
    heap.comparedParts value ⊆ heap.parts value := by
  cases value with
  | method => exact List.nil_subset _
  | _ => exact List.Subset.refl _

/-- Steps beyond the containers found in a value change nothing in its equality to others: the
descent goes down in both at once. -/
theorem Unfolds.agreeOn (hunfolds : heap.Unfolds heap.comparedParts value)
    (hsteps : (heap.containersIn heap.comparedParts value).card ≤ steps) :
    ∀ more, steps ≤ more → AgreeOn (heap.equalWithin more) (heap.equalWithin steps) value := by
  refine hunfolds.induction (motive := fun steps value ↦ ∀ more, steps ≤ more →
    AgreeOn (heap.equalWithin more) (heap.equalWithin steps) value) heap.comparedParts_subset
    (fun steps value _ hinline ih more hmore ↦ ?_)
    (fun steps value address _ hcontainer ih more hmore ↦ ?_) hsteps
  · have hsame : heap.comparedParts value = heap.parts value := by
      cases value with
      | method => cases hinline
      | _ => rfl
    rw [hsame] at ih
    cases more <;> cases steps <;>
      exact equalOver_congr hinline fun part hpart ↦ ih part hpart _ hmore
  · obtain ⟨more, rfl⟩ : ∃ fewer, more = fewer + 1 := ⟨more - 1, by omega⟩
    refine equalOver_congr_contents hcontainer ?_
    cases value with
    | method => exact fun right ↦ by cases right <;> exact ⟨rfl, rfl⟩
    | list | dict =>
      exact equalContents_congr fun part hpart ↦ ih part hpart _ (Nat.le_of_succ_le_succ hmore)
    | _ => cases hcontainer

/-- Equality of a value that unfolds goes down one level and is then equality again. -/
theorem Unfolds.agreeOn_equal (hunfolds : heap.Unfolds heap.comparedParts value) :
    AgreeOn (equalOver (heap.equalContents heap.equal)) heap.equal value :=
  hunfolds.agreeOn (heap.card_containersIn_le heap.comparedParts value) _ (Nat.le_succ _)

/-! ### Heaps without values that contain themselves -/

section

variable (hformed : heap.WellFormed) (hacyclic : heap.Acyclic) (hheld : heap.Holds value)
  (hsteps : heap.size ≤ steps)

include hformed hacyclic hheld hsteps

/-- The written form takes no more steps down than there are objects. -/
theorem WellFormed.writtenWithin_eq : heap.writtenWithin steps value = heap.written value :=
  (hformed.nestsWithin hacyclic hheld).writtenWithin_eq hsteps

/-- Equality takes no more steps down than there are objects. -/
theorem WellFormed.equalWithin_eq (right : Value) :
    heap.equalWithin steps value right = heap.equal value right :=
  have hfewer : Follows heap.comparedParts ≤ heap.Encloses := fun whole _ hpart ↦
    heap.comparedParts_subset whole hpart
  have hunfolds : heap.Unfolds heap.comparedParts value :=
    hformed.unfolds hheld heap.comparedParts_subset fun part _ hcycle ↦
      hacyclic part (Relation.TransGen.mono hfewer _ _ hcycle)
  (hunfolds.agreeOn (heap.card_containersIn_le heap.comparedParts value) steps hsteps right).1

end

end Heap

end Metaobject
