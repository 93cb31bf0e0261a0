import Metaobject.Proofs.ClassGraph.Lookup

/-!
# Which definition a lookup finds

A linearization says which class is to give a name: the first of its classes that has the name in
its own namespace (`Heap.firstHolder`). The raw search comes to rest on a class of its own choice
(`Heap.foundOn`), since it goes through the bases depth first. Both find a class or both find none
(`Hierarchy.foundOn_eq_none_iff`).

They find the same class exactly when the class that is found is below the first holder or is the
first holder itself (`Hierarchy.foundOn_eq_firstHolder_iff`). Otherwise the first holder stands
before the class that is found and is passed over: in a diamond it is a class below the shared
ancestor that is found instead. Where no class has two bases that know the name, nothing is passed
over (`Hierarchy.foundOn_eq_firstHolder`).
-/

set_option autoImplicit false
set_option relaxedAutoImplicit false

namespace Metaobject

/-- A search whose hits are passed on, and each of them to something, finds what is made of the
first hit. -/
theorem findSome?_eq_bind {Item Middle Found : Type} {search : Item → Option Found}
    {inner : Item → Option Middle} {onward : Middle → Option Found} {items : List Item}
    (hsearch : ∀ item ∈ items, search item = (inner item).bind onward)
    (honward : ∀ item ∈ items, ∀ middle, inner item = some middle → (onward middle).isSome) :
    items.findSome? search = (items.findSome? inner).bind onward := by
  induction items with
  | nil => rfl
  | cons item items ih =>
    obtain ⟨hitem, hsearch⟩ := List.forall_mem_cons.mp hsearch
    obtain ⟨hsome, honward⟩ := List.forall_mem_cons.mp honward
    rw [List.findSome?_cons, List.findSome?_cons, hitem, ih hsearch honward]
    cases hinner : inner item with
    | none => rfl
    | some middle =>
      obtain ⟨found, hfound⟩ := Option.isSome_iff_exists.mp (hsome middle hinner)
      simp only [Option.bind_some, hfound]

namespace Heap

/-! ### Holders -/

/-- A class built at run time, if it has a name in its own namespace. -/
def holder? (heap : Heap) (name : String) : ClassRef → Option Address
  | .user address => if (heap.ownAttribute? address name).isSome then some address else none
  | _ => none

/-- The first class of a linearization that has a name in its own namespace. -/
def firstHolder (heap : Heap) (name : String) (address : Address) : Option Address :=
  (heap.linearization (.user address)).findSome? (heap.holder? name)

/-- The class on which the search for a name through the bases comes to rest. -/
def foundOn (heap : Heap) (name : String) (address : Address) : Option Address :=
  if (heap.ownAttribute? address name).isSome then some address
  else (heap.bases address).findSome? fun
    | .user older => if older < address then heap.foundOn name older else none
    | _ => none
termination_by address

/-- The class on which the search for a name on any class comes to rest. -/
def foundAbove (heap : Heap) (name : String) : ClassRef → Option Address
  | .user address => heap.foundOn name address
  | _ => none

theorem holder?_eq_some_iff {heap : Heap} {name : String} {cls : ClassRef} {address : Address} :
    heap.holder? name cls = some address ↔
      cls = .user address ∧ (heap.ownAttribute? address name).isSome := by
  cases cls with
  | native | exception => simp [holder?]
  | user other =>
    simp only [holder?, Option.ite_none_right_eq_some, Option.some.injEq, ClassRef.user.injEq]
    constructor
    · rintro ⟨hown, rfl⟩
      exact ⟨rfl, hown⟩
    · rintro ⟨rfl, hown⟩
      exact ⟨hown, rfl⟩

theorem firstHolder_self {heap : Heap} {name : String} {address : Address}
    (hown : (heap.ownAttribute? address name).isSome) :
    heap.firstHolder name address = some address := by
  have hholder : heap.holder? name (.user address) = some address :=
    holder?_eq_some_iff.mpr ⟨rfl, hown⟩
  simp only [firstHolder, linearization, List.findSome?_cons, hholder]

/-- The first holder stands in the linearization, and no class before it has the name. -/
theorem exists_of_firstHolder {heap : Heap} {name : String} {address first : Address}
    (hfirst : heap.firstHolder name address = some first) :
    (heap.ownAttribute? first name).isSome ∧
      ∃ before after, heap.linearization (.user address) = before ++ .user first :: after ∧
        ∀ earlier ∈ before, heap.holder? name earlier = none := by
  obtain ⟨before, cls, after, horder, hcls, hbefore⟩ := List.findSome?_eq_some_iff.mp hfirst
  obtain ⟨rfl, hown⟩ := holder?_eq_some_iff.mp hcls
  exact ⟨hown, before, after, horder, hbefore⟩

namespace Hierarchy

variable {shape heap : Heap}

section

variable (hhierarchy : shape.Hierarchy) (hsame : shape.SameClasses heap)

include hhierarchy hsame

/-- The search comes to rest on the class itself, or where that on the first base does that comes
to rest at all. -/
theorem foundOn_eq {address : Address} {record : ClassRecord}
    (hrecord : shape.userClass? address = some record) (name : String) :
    heap.foundOn name address =
      if (heap.ownAttribute? address name).isSome then some address
      else record.bases.findSome? (heap.foundAbove name) := by
  have hgrounded := hhierarchy address record hrecord
  have hbases : heap.bases address = record.bases := by
    rw [bases, hsame address, hrecord]
  rw [foundOn, hbases]
  congr 1
  refine findSome?_congr fun base hbase ↦ ?_
  cases base with
  | native | exception => rfl
  | user older => exact if_pos (hgrounded.base_older older hbase).1

/-- The class on which the search comes to rest stands in the linearization and has the name. -/
theorem holds_of_foundOn {name : String} {address found : Address}
    (hcls : (shape.userClass? address).isSome) (hfound : heap.foundOn name address = some found) :
    (heap.ownAttribute? found name).isSome ∧
      .user found ∈ shape.linearization (.user address) := by
  induction address using Nat.strongRecOn with
  | ind address ih =>
    obtain ⟨record, hrecord⟩ := Option.isSome_iff_exists.mp hcls
    rw [foundOn_eq hhierarchy hsame hrecord] at hfound
    by_cases hown : (heap.ownAttribute? address name).isSome
    · rw [if_pos hown] at hfound
      obtain rfl := Option.some.inj hfound
      exact ⟨hown, mem_linearization_self shape _⟩
    · rw [if_neg hown] at hfound
      obtain ⟨base, hbase, hhit⟩ := List.exists_of_findSome?_eq_some hfound
      cases base with
      | native | exception => cases hhit
      | user older =>
        obtain ⟨hless, hhas⟩ := (hhierarchy address record hrecord).base_older older hbase
        obtain ⟨hholds, hmem⟩ := ih older hless hhas hhit
        have hancestry := hhierarchy.ancestry hrecord
        refine ⟨hholds, ?_⟩
        rw [linearization_user hrecord]
        exact List.mem_cons_of_mem _
          ((hancestry.sublist _ (hancestry.bases_sublist.subset hbase)).subset hmem)

/-- The search gives what the class on which it comes to rest has in its own namespace. -/
theorem lookupUser_eq_foundOn {address : Address} (hcls : (shape.userClass? address).isSome)
    (name : String) :
    heap.lookupUser name address =
      (heap.foundOn name address).bind fun found ↦ heap.ownAttribute? found name := by
  induction address using Nat.strongRecOn with
  | ind address ih =>
    obtain ⟨record, hrecord⟩ := Option.isSome_iff_exists.mp hcls
    have hgrounded := hhierarchy address record hrecord
    rw [lookupUser_eq_bases hhierarchy hsame hrecord, foundOn_eq hhierarchy hsame hrecord, ownOr]
    cases hown : heap.ownAttribute? address name with
    | some found => simp [hown]
    | none =>
      simp only [Option.isSome_none, Bool.false_eq_true, if_false, Option.orElse_none]
      refine findSome?_eq_bind (fun base hbase ↦ ?_) fun base hbase found hfound ↦ ?_
      · cases base with
        | native | exception => rfl
        | user older =>
          obtain ⟨hless, hhas⟩ := hgrounded.base_older older hbase
          exact ih older hless hhas
      · cases base with
        | native | exception => cases hfound
        | user older =>
          exact (holds_of_foundOn hhierarchy hsame (hgrounded.base_older older hbase).2 hfound).1

/-- Where the search comes to rest, it finds something. -/
theorem lookup_ne_none {name : String} {cls : ClassRef} {found : Address}
    (hcls : shape.HasClass cls) (hfound : heap.foundAbove name cls = some found) :
    heap.lookup name cls ≠ none := by
  cases cls with
  | native | exception => cases hfound
  | user address =>
    have hrests : heap.foundOn name address = some found := hfound
    have hholds := (holds_of_foundOn hhierarchy hsame hcls hrests).1
    rw [lookup, lookupUser_eq_foundOn hhierarchy hsame hcls, hrests, Option.bind_some]
    exact Option.ne_none_iff_isSome.mpr hholds

/-- The search comes to rest exactly if some class of the linearization has the name. -/
theorem foundOn_eq_none_iff {address : Address} (hcls : (shape.userClass? address).isSome)
    (name : String) :
    heap.foundOn name address = none ↔ heap.firstHolder name address = none := by
  have hhas : shape.HasClass (.user address) := hcls
  have hnone : heap.foundOn name address = none ↔ heap.lookup name (.user address) = none := by
    constructor
    · intro hfound
      rw [lookup, lookupUser_eq_foundOn hhierarchy hsame hcls, hfound, Option.bind_none]
    · intro hlookup
      refine Option.eq_none_iff_forall_ne_some.mpr fun found hfound ↦ ?_
      exact lookup_ne_none hhierarchy hsame hhas hfound hlookup
  rw [hnone, lookup_eq_none_iff hhierarchy hsame hhas, firstHolder, hsame.linearization,
    List.findSome?_eq_none_iff]
  constructor
  · intro hall ancestor hancestor
    cases ancestor with
    | native | exception => rfl
    | user older => simp [holder?, hall older hancestor]
  · intro hall ancestor hancestor
    have hholder := hall _ hancestor
    simpa [holder?] using hholder

/-! ### Which holder is found -/

/-- The first holder for a class is that for each class between. -/
theorem firstHolder_of_mem {name : String} {address ancestor first : Address}
    (hcls : (shape.userClass? address).isSome)
    (hancestor : .user ancestor ∈ shape.linearization (.user address))
    (hfirst : heap.firstHolder name address = some first)
    (hmem : .user first ∈ shape.linearization (.user ancestor)) :
    heap.firstHolder name ancestor = some first := by
  have hlinear := hhierarchy.linear_user hcls
  have hhit : ∀ before item after, shape.linearization (.user address) = before ++ item :: after →
      (∀ earlier ∈ before, heap.holder? name earlier = none) → heap.holder? name item ≠ none →
        item = .user first := by
    intro before item after hsplit hbefore hitem
    rw [firstHolder, hsame.linearization, hsplit, List.findSome?_append,
      List.findSome?_eq_none_iff.mpr hbefore, Option.none_or, List.findSome?_cons] at hfirst
    cases hholder : heap.holder? name item with
    | none => exact absurd hholder hitem
    | some other =>
      rw [hholder] at hfirst
      obtain rfl := Option.some.inj hfirst
      exact (holder?_eq_some_iff.mp hholder).1
  rw [← hfirst, firstHolder, firstHolder, hsame.linearization, hsame.linearization]
  refine (findSome?_eq_of_sublist (hlinear.sublist _ hancestor) hlinear.nodup ?_).symm
  intro before item after hsplit hbefore hitem
  exact hhit before item after hsplit hbefore hitem ▸ hmem

/-- The search comes to rest on the first holder exactly if it comes to rest below it or on it. -/
theorem foundOn_eq_firstHolder_iff {name : String} {address found first : Address}
    (hcls : (shape.userClass? address).isSome) (hfound : heap.foundOn name address = some found)
    (hfirst : heap.firstHolder name address = some first) :
    found = first ↔ .user first ∈ shape.linearization (.user found) := by
  obtain ⟨hholds, hmem⟩ := holds_of_foundOn hhierarchy hsame hcls hfound
  constructor
  · rintro rfl
    exact mem_linearization_self shape _
  · intro habove
    have hsame := firstHolder_of_mem hhierarchy hsame hcls hmem hfirst habove
    rw [firstHolder_self hholds] at hsame
    exact Option.some.inj hsame

/-- The first holder for a class that has not the name itself is above a base. -/
theorem exists_base_of_firstHolder {name : String} {address first : Address} {record : ClassRecord}
    (hrecord : shape.userClass? address = some record)
    (hown : ¬(heap.ownAttribute? address name).isSome)
    (hfirst : heap.firstHolder name address = some first) :
    ∃ older, .user older ∈ record.bases ∧ .user first ∈ shape.linearization (.user older) := by
  obtain ⟨hholds, before, after, horder, -⟩ := exists_of_firstHolder hfirst
  have hmem : .user first ∈ shape.linearization (.user address) := by
    rw [← hsame.linearization, horder]
    exact List.mem_append_right _ List.mem_cons_self
  rw [linearization_user hrecord] at hmem
  rcases List.mem_cons.mp hmem with hself | hlater
  · obtain rfl := ClassRef.user.inj hself
    exact absurd hholds hown
  obtain hobject | ⟨base, hbase, habove⟩ := (hhierarchy.ancestry hrecord).comes_from _ hlater
  · cases hobject
  cases base with
  | native | exception => simp [Heap.linearization] at habove
  | user older => exact ⟨older, hbase, habove⟩

/-- Where of the bases of a class at most one knows a name, the search comes to rest on the first
holder. -/
theorem foundOn_eq_firstHolder {name : String} {address : Address}
    (hcls : (shape.userClass? address).isSome)
    (hunique : ∀ ancestor, .user ancestor ∈ shape.linearization (.user address) →
      ∀ base ∈ shape.bases ancestor, ∀ other ∈ shape.bases ancestor,
        heap.lookup name base ≠ none → heap.lookup name other ≠ none → base = other) :
    heap.foundOn name address = heap.firstHolder name address := by
  induction address using Nat.strongRecOn with
  | ind address ih =>
    obtain ⟨record, hrecord⟩ := Option.isSome_iff_exists.mp hcls
    have hancestry := hhierarchy.ancestry hrecord
    have hbases : shape.bases address = record.bases := by rw [bases, hrecord]
    rw [foundOn_eq hhierarchy hsame hrecord]
    by_cases hown : (heap.ownAttribute? address name).isSome
    · rw [if_pos hown, firstHolder_self hown]
    · rw [if_neg hown]
      cases hfirst : heap.firstHolder name address with
      | none =>
        have hnone := (foundOn_eq_none_iff hhierarchy hsame hcls name).mpr hfirst
        rwa [foundOn_eq hhierarchy hsame hrecord, if_neg hown] at hnone
      | some first =>
        -- The first holder is above a base, and that is the one base that knows the name.
        obtain ⟨older, hbase, habove⟩ :=
          exists_base_of_firstHolder hhierarchy hsame hrecord hown hfirst
        obtain ⟨hless, hhas⟩ := (hhierarchy address record hrecord).base_older older hbase
        have hmem : .user older ∈ shape.linearization (.user address) := by
          rw [linearization_user hrecord]
          exact List.mem_cons_of_mem _ (hancestry.bases_sublist.subset hbase)
        have hsublist := (hhierarchy.linear_user hcls).sublist _ hmem
        have hknown : heap.foundAbove name (.user older) = some first :=
          (ih older hless hhas fun ancestor hancestor ↦
            hunique ancestor (hsublist.subset hancestor)).trans
            (firstHolder_of_mem hhierarchy hsame hcls hmem hfirst habove)
        cases hsearch : record.bases.findSome? (heap.foundAbove name) with
        | none =>
          rw [List.findSome?_eq_none_iff.mp hsearch _ hbase] at hknown
          cases hknown
        | some found =>
          obtain ⟨base, hother, hhit⟩ := List.exists_of_findSome?_eq_some hsearch
          have hgrounded := hhierarchy address record hrecord
          obtain rfl : base = .user older :=
            hunique address (mem_linearization_self shape _) base (hbases ▸ hother) _
              (hbases ▸ hbase)
              (lookup_ne_none hhierarchy hsame (hgrounded.hasClass_base hother) hhit)
              (lookup_ne_none hhierarchy hsame (hgrounded.hasClass_base hbase) hknown)
          rw [← hhit, hknown]

end

end Hierarchy

end Heap

end Metaobject
