import Mathlib.Logic.Function.Iterate
import Metaobject.ClassGraph.Metaclass
import Metaobject.Proofs.ClassGraph.Hierarchy

/-!
# Metaclasses in a hierarchy

The most derived metaclass is one of the candidates and a subtype of all of them
(`mem_of_mostDerived`, `isSubtype_of_mostDerived`); a starting class that is a subtype of the others
is its own answer (`mostDerivedMetaclass_start`). In a hierarchy the metaclass of a class is `type`
or a class built at run time that derives from `type` (`isMetatype_cases`). It is a subtype of the
metaclass of each ancestor (`Hierarchy.isSubtype_metaclassOf`), and following metaclasses leads to
`type` (`Hierarchy.exists_iterate_metaclassOf`), both by induction on the age of the class.
-/

set_option autoImplicit false
set_option relaxedAutoImplicit false

namespace Metaobject.Heap

variable {heap : Heap}

/-! ### The most derived metaclass -/

/-- The candidates start with the class asked for. -/
theorem metaclassCandidates_eq_cons (heap : Heap) (start : ClassRef) (bases : List Value) :
    ∃ others, heap.metaclassCandidates start bases = start :: others := by
  suffices hfold : ∀ (bases : List Value) (front : List ClassRef),
      ∃ others, bases.foldl (fun candidates base ↦
        if candidates.contains (heap.typeOf base) then candidates
        else candidates ++ [heap.typeOf base]) (start :: front) = start :: others from
    hfold bases []
  intro bases
  induction bases with
  | nil => exact fun front ↦ ⟨front, rfl⟩
  | cons base rest ih =>
    intro front
    rw [List.foldl_cons]
    split
    · exact ih front
    · exact ih (front ++ [heap.typeOf base])

theorem mem_metaclassCandidates {start cls : ClassRef} {bases : List Value} :
    cls ∈ heap.metaclassCandidates start bases ↔
      cls = start ∨ ∃ base ∈ bases, cls = heap.typeOf base := by
  suffices hfold : ∀ (bases : List Value) (front : List ClassRef),
      cls ∈ bases.foldl (fun candidates base ↦
        if candidates.contains (heap.typeOf base) then candidates
        else candidates ++ [heap.typeOf base]) front ↔
        cls ∈ front ∨ ∃ base ∈ bases, cls = heap.typeOf base by
    rw [metaclassCandidates, hfold, List.mem_singleton]
  intro bases
  induction bases with
  | nil => simp
  | cons base rest ih =>
    intro front
    rw [List.foldl_cons, ih]
    by_cases hknown : heap.typeOf base ∈ front
    · have hsame : cls = heap.typeOf base → cls ∈ front := fun hcls ↦ hcls ▸ hknown
      simp only [List.contains_eq_mem, hknown, decide_true, ↓reduceIte, List.exists_mem_cons_iff]
      tauto
    · simp only [List.contains_eq_mem, hknown, decide_false, Bool.false_eq_true, ↓reduceIte,
        List.mem_append, List.mem_singleton, List.exists_mem_cons_iff]
      tauto

theorem mostDerivedMetaclass_eq_ok {start winner : ClassRef} {bases : List Value}
    (hwinner : heap.mostDerivedMetaclass start bases = .ok winner) :
    winner ∈ heap.metaclassCandidates start bases ∧
      ∀ other ∈ heap.metaclassCandidates start bases, heap.isSubtype winner other := by
  unfold mostDerivedMetaclass at hwinner
  simp only at hwinner
  split at hwinner
  · rename_i found hfound
    obtain rfl := Except.ok.inj hwinner
    have hall : (heap.metaclassCandidates start bases).all (heap.isSubtype found) = true :=
      List.find?_some (p := fun winner ↦
        (heap.metaclassCandidates start bases).all (heap.isSubtype winner)) hfound
    exact ⟨List.mem_of_find?_eq_some hfound, List.all_eq_true.mp hall⟩
  · simp at hwinner

theorem mem_of_mostDerived {start winner : ClassRef} {bases : List Value}
    (hwinner : heap.mostDerivedMetaclass start bases = .ok winner) :
    winner = start ∨ ∃ base ∈ bases, winner = heap.typeOf base :=
  mem_metaclassCandidates.mp (mostDerivedMetaclass_eq_ok hwinner).1

theorem isSubtype_of_mostDerived {start winner : ClassRef} {bases : List Value}
    (hwinner : heap.mostDerivedMetaclass start bases = .ok winner) {base : Value}
    (hbase : base ∈ bases) : heap.isSubtype winner (heap.typeOf base) :=
  (mostDerivedMetaclass_eq_ok hwinner).2 _ (mem_metaclassCandidates.mpr (Or.inr ⟨base, hbase, rfl⟩))

/-- A class that is a subtype of itself and of the types of the bases is chosen when it is asked
for, as the first candidate. -/
theorem mostDerivedMetaclass_start {start : ClassRef} {bases : List Value}
    (hself : heap.isSubtype start start)
    (hbases : ∀ base ∈ bases, heap.isSubtype start (heap.typeOf base)) :
    heap.mostDerivedMetaclass start bases = .ok start := by
  have hall : (heap.metaclassCandidates start bases).all (heap.isSubtype start) = true := by
    refine List.all_eq_true.mpr fun other hother ↦ ?_
    obtain rfl | ⟨base, hbase, rfl⟩ := mem_metaclassCandidates.mp hother
    · exact hself
    · exact hbases base hbase
  obtain ⟨others, hothers⟩ := heap.metaclassCandidates_eq_cons start bases
  have hfind : (heap.metaclassCandidates start bases).find?
      (fun winner ↦ (heap.metaclassCandidates start bases).all (heap.isSubtype winner)) =
        some start := by
    rw [hothers] at hall ⊢
    exact List.find?_cons_of_pos hall
  unfold mostDerivedMetaclass
  simp only [hfind]

/-! ### Metaclasses of classes -/

/-- The type of a value that is a class. -/
theorem typeOf_eq_metaclassOf (heap : Heap) {value : Value} {cls : ClassRef}
    (hcls : value.class? = some cls) : heap.typeOf value = heap.metaclassOf cls := by
  cases value with
  | builtin builtin =>
    cases builtin with
    | function => simp [Value.class?] at hcls
    | type | exception => obtain rfl := Option.some.inj hcls; rfl
  | userClass => obtain rfl := Option.some.inj hcls; rfl
  | _ => simp [Value.class?] at hcls

/-- The only native class of classes is `type`; every other one is built at run time. -/
theorem isMetatype_cases {cls : ClassRef} (hmetatype : heap.isMetatype cls) :
    cls = .native .type ∨ ∃ address, cls = .user address ∧ heap.isMetaclass address := by
  cases cls with
  | native kind =>
    have hcontains : kind.ancestors.contains .type = true := hmetatype
    have hkind : kind = .type := by
      revert hcontains
      cases kind <;> decide
    exact Or.inl (congrArg ClassRef.native hkind)
  | exception cls => exact absurd hmetatype (by simp [isMetatype, isSubtype])
  | user address =>
    rw [isMetatype, isSubtype_user] at hmetatype
    exact Or.inr ⟨address, rfl, by simpa [isMetaclass] using hmetatype⟩

theorem isMetatype_of_isMetaclass {address : Address} (hmetaclass : heap.isMetaclass address) :
    heap.isMetatype (.user address) := by
  rw [isMetaclass] at hmetaclass
  rw [isMetatype, isSubtype_user, hmetaclass, Bool.or_true]

theorem metaclassOf_user {address : Address} {record : ClassRecord}
    (hrecord : heap.userClass? address = some record) :
    heap.metaclassOf (.user address) = record.metaclass := by
  simp only [metaclassOf, hrecord]

namespace Hierarchy

theorem metaclassOf_isMetatype (hhierarchy : heap.Hierarchy) (cls : ClassRef) :
    heap.isMetatype (heap.metaclassOf cls) := by
  cases cls with
  | native | exception => rfl
  | user address =>
    cases hrecord : heap.userClass? address with
    | none => simp only [metaclassOf, hrecord]; rfl
    | some record =>
      rw [metaclassOf_user hrecord]
      exact (hhierarchy address record hrecord).metaclass_isMetatype

theorem hasClass_metaclassOf (hhierarchy : heap.Hierarchy) (cls : ClassRef) :
    heap.HasClass (heap.metaclassOf cls) := by
  cases cls with
  | native | exception => trivial
  | user address =>
    cases hrecord : heap.userClass? address with
    | none => simp only [metaclassOf, hrecord]; trivial
    | some record =>
      rw [metaclassOf_user hrecord]
      exact (hhierarchy address record hrecord).hasClass_metaclass

/-- A metaclass is a subtype of the metaclass of every ancestor: of those of the bases by the way it
was chosen, and of those above the bases through them. -/
theorem isSubtype_metaclassOf (hhierarchy : heap.Hierarchy) {cls ancestor : ClassRef}
    (hcls : heap.HasClass cls) (hancestor : ancestor ∈ heap.linearization cls) :
    heap.isSubtype (heap.metaclassOf cls) (heap.metaclassOf ancestor) := by
  cases cls with
  | native kind =>
    obtain ⟨other, -, rfl⟩ := List.mem_map.mp hancestor
    rfl
  | exception cls =>
    obtain ⟨other, -, rfl⟩ | rfl := mem_linearization_exception.mp hancestor <;> rfl
  | user address =>
    induction address using Nat.strongRecOn with
    | ind address ih =>
      obtain ⟨record, hrecord⟩ := Option.isSome_iff_exists.mp hcls
      have hgrounded := hhierarchy address record hrecord
      rw [linearization_user hrecord] at hancestor
      rw [metaclassOf_user hrecord]
      rcases List.mem_cons.mp hancestor with rfl | habove
      · rw [metaclassOf_user hrecord]
        exact hhierarchy.isSubtype_refl hgrounded.hasClass_metaclass
      obtain rfl | ⟨base, hbase, hmem⟩ := (hhierarchy.ancestry hrecord).comes_from _ habove
      · exact hgrounded.metaclass_isMetatype
      have hchosen := hgrounded.metaclass_isSubtype base hbase
      refine hhierarchy.isSubtype_trans hgrounded.hasClass_metaclass hchosen ?_
      cases base with
      | native kind =>
        obtain ⟨other, -, rfl⟩ := List.mem_map.mp hmem
        rfl
      | exception cls =>
        obtain ⟨other, -, rfl⟩ | rfl := mem_linearization_exception.mp hmem <;> rfl
      | user base =>
        have holder := hgrounded.base_older base hbase
        exact ih base holder.1 holder.2 hmem

/-- Following metaclasses from any class leads to `type`, as each is older than the one before. -/
theorem exists_iterate_metaclassOf (hhierarchy : heap.Hierarchy) (cls : ClassRef) :
    ∃ steps, heap.metaclassOf^[steps] cls = .native .type := by
  cases cls with
  | native | exception => exact ⟨1, rfl⟩
  | user address =>
    induction address using Nat.strongRecOn with
    | ind address ih =>
      cases hrecord : heap.userClass? address with
      | none => exact ⟨1, by simp only [Function.iterate_one, metaclassOf, hrecord]⟩
      | some record =>
        have hnext := metaclassOf_user hrecord
        cases hmetaclass : record.metaclass with
        | native | exception =>
          exact ⟨2, by rw [Function.iterate_succ_apply, hnext, hmetaclass]; rfl⟩
        | user metaclass =>
          have holder := (hhierarchy address record hrecord).metaclass_older metaclass hmetaclass
          obtain ⟨steps, hsteps⟩ := ih metaclass holder.1
          exact ⟨steps + 1, by rw [Function.iterate_succ_apply, hnext, hmetaclass, hsteps]⟩

end Hierarchy

end Metaobject.Heap
