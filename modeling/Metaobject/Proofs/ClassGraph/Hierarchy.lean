import Metaobject.ClassGraph.Linearization
import Metaobject.Proofs.ClassGraph.Merge
import Metaobject.Proofs.Heap.Growth

/-!
# The hierarchy of classes

In a hierarchy every class built at run time stands to its bases and its metaclass as its
construction left it (`ClassRecord.Grounded`, `Heap.Hierarchy`): they are older than the class, its
linearization is the one computed from its bases, and its metaclass is a subtype of theirs. All that
is known of linearizations follows by induction on the age of the class (`Hierarchy.linear`): a
linearization repeats no class, starts with the class, ends with `object`, holds nothing younger,
and keeps the linearization of each class in it (`Linear`). One class is a subtype of another
exactly when the other is in its linearization (`Hierarchy.isSubtype_iff`), so subtyping is
transitive (`Hierarchy.isSubtype_trans`).

A class stays in this relation while the heap grows (`ClassRecord.Grounded.of_growsTo`).
-/

set_option autoImplicit false
set_option relaxedAutoImplicit false

namespace Metaobject

/-! ### Native types and exception classes -/

theorem NativeType.ancestors_nodup (kind : NativeType) : kind.ancestors.Nodup := by
  cases kind <;> decide

theorem NativeType.ancestors_sublist {kind other : NativeType} (hother : other ∈ kind.ancestors) :
    other.ancestors.Sublist kind.ancestors := by
  revert other
  cases kind <;> decide

theorem NativeType.getLast?_ancestors (kind : NativeType) :
    kind.ancestors.getLast? = some .object := by
  cases kind <;> rfl

namespace ExceptionClass

/-- Statements about a class follow from the same about its parent. -/
theorem parent_induction {motive : ExceptionClass → Prop}
    (step : ∀ cls, (∀ parent, cls.parent? = some parent → motive parent) → motive cls)
    (cls : ExceptionClass) : motive cls := by
  induction hindex : cls.ctorIdx using Nat.strongRecOn generalizing cls with
  | ind index ih =>
    refine step cls fun parent hparent ↦ ih parent.ctorIdx ?_ parent rfl
    exact hindex ▸ ctorIdx_parent cls parent hparent

theorem ancestors_sublist {cls other : ExceptionClass} (hother : other ∈ cls.ancestors) :
    other.ancestors.Sublist cls.ancestors := by
  induction cls using parent_induction with
  | step cls ih =>
    have hcls := cls.ancestors_eq
    cases hparent : cls.parent? with
    | none =>
      simp only [hparent] at hcls
      obtain rfl : other = cls := by simpa [hcls] using hother
      exact List.Sublist.refl _
    | some parent =>
      simp only [hparent] at hcls
      rw [hcls] at hother ⊢
      rcases List.mem_cons.mp hother with rfl | habove
      · exact hcls ▸ List.Sublist.refl _
      · exact (ih parent hparent habove).cons cls

theorem ctorIdx_le_of_mem_ancestors {cls other : ExceptionClass} (hother : other ∈ cls.ancestors) :
    other.ctorIdx ≤ cls.ctorIdx := by
  induction cls using parent_induction with
  | step cls ih =>
    rw [cls.ancestors_eq] at hother
    cases hparent : cls.parent? with
    | none => simp_all
    | some parent =>
      simp only [hparent, List.mem_cons] at hother
      rcases hother with rfl | habove
      · exact Nat.le_refl _
      · have hless := ctorIdx_parent cls parent hparent
        exact Nat.le_trans (ih parent hparent habove) (Nat.le_of_lt hless)

theorem ancestors_nodup (cls : ExceptionClass) : cls.ancestors.Nodup := by
  induction cls using parent_induction with
  | step cls ih =>
    rw [cls.ancestors_eq]
    cases hparent : cls.parent? with
    | none => simp
    | some parent =>
      refine List.nodup_cons.mpr ⟨fun habove ↦ ?_, ih parent hparent⟩
      have hlt := ctorIdx_parent cls parent hparent
      exact absurd (ctorIdx_le_of_mem_ancestors habove) (Nat.not_le_of_lt hlt)

theorem mem_ancestors_self (cls : ExceptionClass) : cls ∈ cls.ancestors := by
  rw [cls.ancestors_eq]
  split <;> simp

end ExceptionClass

/-! ### Orders that end alike -/

theorem head_eq_of_sublist {Item : Type} {first head : Item} {list order : List Item}
    (hsublist : (first :: list).Sublist (head :: order)) (hnodup : (head :: order).Nodup)
    (hhead : head ∈ first :: list) : first = head := by
  cases hsublist with
  | cons _ hlater => exact absurd (hlater.subset hhead) (List.nodup_cons.mp hnodup).1
  | cons_cons => rfl

/-- An order ends as a part of it does that holds its last item. -/
theorem getLast?_eq_of_sublist {Item : Type} {list order : List Item} {last ending : Item}
    (hsublist : list.Sublist order) (hnodup : order.Nodup) (hlist : list.getLast? = some last)
    (horder : order.getLast? = some ending) (hending : ending ∈ list) : ending = last := by
  rw [List.getLast?_eq_head?_reverse] at hlist horder
  obtain ⟨front, hfront⟩ := List.head?_eq_some_iff.mp hlist
  obtain ⟨start, hstart⟩ := List.head?_eq_some_iff.mp horder
  have hreversed : (last :: front).Sublist (ending :: start) := by
    rw [← hfront, ← hstart]
    exact hsublist.reverse
  refine (head_eq_of_sublist hreversed ?_ ?_).symm
  · rw [← hstart]
    exact List.nodup_reverse.mpr hnodup
  · rw [← hfront]
    exact List.mem_reverse.mpr hending

namespace Heap

variable {heap older newer : Heap}

/-! ### Linearizing -/

theorem baseFault?_eq_none_iff (heap : Heap) (seen bases : List ClassRef) :
    heap.baseFault? seen bases = none ↔
      (∀ base ∈ bases, isAcceptableBase base) ∧ bases.Nodup ∧ ∀ base ∈ bases, base ∉ seen := by
  induction bases generalizing seen with
  | nil => simp [baseFault?]
  | cons base rest ih =>
    unfold baseFault?
    by_cases hacceptable : isAcceptableBase base = true
    · by_cases hseen : base ∈ seen
      · simp [hacceptable, hseen]
      · simp only [hacceptable, Bool.not_true, Bool.false_eq_true, ↓reduceIte,
          List.contains_eq_mem, hseen, decide_false, ih, List.forall_mem_cons, List.nodup_cons,
          List.mem_append, List.mem_singleton, not_or, true_and, not_false_eq_true]
        constructor
        · rintro ⟨haccept, hnodup, hfresh⟩
          exact ⟨haccept, ⟨fun hbase ↦ (hfresh base hbase).2 rfl, hnodup⟩,
            fun other hother ↦ (hfresh other hother).1⟩
        · rintro ⟨haccept, ⟨hbase, hnodup⟩, hfresh⟩
          refine ⟨haccept, hnodup, fun other hother ↦ ⟨hfresh other hother, ?_⟩⟩
          rintro rfl
          exact hbase hother
    · simp [hacceptable]

/-- When bases have a linearization, and which one. -/
theorem linearize_eq_ok_iff (heap : Heap) (bases order : List ClassRef) :
    heap.linearize bases = .ok order ↔
      bases = [] ∧ order = [.native .object] ∨
        bases ≠ [] ∧ (∀ base ∈ bases, isAcceptableBase base) ∧ bases.Nodup ∧
          ClassGraph.merge maxLinearization (heap.basisLists bases) = .ok order := by
  have hnone := heap.baseFault?_eq_none_iff [] bases
  simp only [List.not_mem_nil, not_false_eq_true, implies_true, and_true] at hnone
  unfold linearize
  by_cases hempty : bases = []
  · subst hempty
    refine ⟨fun hok ↦ Or.inl ⟨rfl, (Except.ok.inj hok).symm⟩, ?_⟩
    rintro (⟨-, rfl⟩ | ⟨hnonempty, -⟩)
    · rfl
    · exact absurd rfl hnonempty
  rw [if_neg (by simpa using hempty)]
  cases hfault : heap.baseFault? [] bases with
  | some fault =>
    refine ⟨fun hok ↦ absurd hok (by simp), ?_⟩
    rintro (⟨hnil, -⟩ | ⟨-, hacceptable, hnodup, -⟩)
    · exact absurd hnil hempty
    · exact absurd (hnone.mpr ⟨hacceptable, hnodup⟩) (by simp [hfault])
  | none =>
    obtain ⟨hacceptable, hnodup⟩ := hnone.mp hfault
    refine ⟨fun hok ↦ Or.inr ⟨hempty, hacceptable, hnodup, ?_⟩, ?_⟩
    · cases hmerge : ClassGraph.merge maxLinearization (heap.basisLists bases) with
      | error failure => simp [hmerge, Except.mapError] at hok
      | ok merged => simpa [hmerge, Except.mapError] using hok
    · rintro (⟨hnil, -⟩ | ⟨-, -, -, hmerge⟩)
      · exact absurd hnil hempty
      · simp [hmerge, Except.mapError]

theorem GrowsTo.linearize (hgrows : older.GrowsTo newer) {bases order : List ClassRef}
    (hbases : ∀ base ∈ bases, older.HasClass base) (horder : older.linearize bases = .ok order) :
    newer.linearize bases = .ok order := by
  rw [linearize_eq_ok_iff] at horder ⊢
  have hlists : newer.basisLists bases = older.basisLists bases := by
    unfold basisLists
    rw [List.map_congr_left fun base hbase ↦ hgrows.linearization (hbases base hbase)]
  rwa [hlists]

end Heap

/-! ### Hierarchies -/

/-- A class as its construction left it: what it was made from is older, and its linearization and
its metaclass fit its bases. -/
structure ClassRecord.Grounded (heap : Heap) (address : Address) (record : ClassRecord) : Prop where
  base_older : ∀ base, .user base ∈ record.bases →
    base < address ∧ (heap.userClass? base).isSome
  linearized : heap.linearize record.bases = .ok record.linearization
  metaclass_older : ∀ metaclass, record.metaclass = .user metaclass →
    metaclass < address ∧ (heap.userClass? metaclass).isSome
  metaclass_isMetatype : heap.isMetatype record.metaclass
  metaclass_isSubtype : ∀ base ∈ record.bases,
    heap.isSubtype record.metaclass (heap.metaclassOf base)

namespace ClassRecord.Grounded

variable {heap newer : Heap} {address : Address} {record : ClassRecord}

theorem hasClass_base (hgrounded : record.Grounded heap address) {base : ClassRef}
    (hbase : base ∈ record.bases) : heap.HasClass base := by
  cases base with
  | native | exception => trivial
  | user older => exact (hgrounded.base_older older hbase).2

theorem hasClass_metaclass (hgrounded : record.Grounded heap address) :
    heap.HasClass record.metaclass := by
  cases hmetaclass : record.metaclass with
  | native | exception => trivial
  | user older => exact (hgrounded.metaclass_older older hmetaclass).2

theorem of_growsTo (hgrounded : record.Grounded heap address) (hgrows : heap.GrowsTo newer) :
    record.Grounded newer address where
  base_older base hbase :=
    ⟨(hgrounded.base_older base hbase).1, hgrows.hasClass (hgrounded.hasClass_base hbase)⟩
  linearized := hgrows.linearize (fun _ hbase ↦ hgrounded.hasClass_base hbase)
    hgrounded.linearized
  metaclass_older metaclass hmetaclass :=
    have holder := hgrounded.metaclass_older metaclass hmetaclass
    ⟨holder.1, hgrows.userClass?_isSome holder.2⟩
  metaclass_isMetatype := by
    have hmetatype := hgrounded.metaclass_isMetatype
    rwa [Heap.isMetatype, ← hgrows.isSubtype hgrounded.hasClass_metaclass] at hmetatype
  metaclass_isSubtype base hbase := by
    rw [hgrows.metaclassOf (hgrounded.hasClass_base hbase),
      hgrows.isSubtype hgrounded.hasClass_metaclass]
    exact hgrounded.metaclass_isSubtype base hbase

end ClassRecord.Grounded

namespace Heap

variable {heap older newer : Heap}

/-- A heap in which every class is as its construction left it. -/
def Hierarchy (heap : Heap) : Prop :=
  ∀ address record, heap.userClass? address = some record → record.Grounded heap address

/-! ### Linearizations in a hierarchy -/

/-- Whether a class is older than a bound: native types and exception classes always are. -/
def IsOlder (bound : Address) : ClassRef → Prop
  | .user address => address < bound
  | _ => True

/-- What is known of the linearization of a class. -/
structure Linear (heap : Heap) (cls : ClassRef) : Prop where
  nodup : (heap.linearization cls).Nodup
  getLast?_eq : (heap.linearization cls).getLast? = some (.native .object)
  hasClass : ∀ ancestor ∈ heap.linearization cls, heap.HasClass ancestor
  isOlder : ∀ bound, IsOlder bound cls → ∀ ancestor ∈ heap.linearization cls, IsOlder bound ancestor
  sublist : ∀ ancestor ∈ heap.linearization cls,
    (heap.linearization ancestor).Sublist (heap.linearization cls)

theorem linear_native (heap : Heap) (kind : NativeType) : heap.Linear (.native kind) where
  nodup := kind.ancestors_nodup.map fun _ _ hsame ↦ ClassRef.native.inj hsame
  getLast?_eq := by simp [linearization, kind.getLast?_ancestors]
  hasClass ancestor hancestor := by
    obtain ⟨other, -, rfl⟩ := List.mem_map.mp hancestor
    trivial
  isOlder bound _ ancestor hancestor := by
    obtain ⟨other, -, rfl⟩ := List.mem_map.mp hancestor
    trivial
  sublist ancestor hancestor := by
    obtain ⟨other, hother, rfl⟩ := List.mem_map.mp hancestor
    exact (NativeType.ancestors_sublist hother).map ClassRef.native

theorem mem_linearization_exception {heap : Heap} {cls : ExceptionClass} {ancestor : ClassRef} :
    ancestor ∈ heap.linearization (.exception cls) ↔
      (∃ other ∈ cls.ancestors, ancestor = .exception other) ∨ ancestor = .native .object := by
  simp [linearization, eq_comm]

theorem linear_exception (heap : Heap) (cls : ExceptionClass) : heap.Linear (.exception cls) where
  nodup := by
    refine List.nodup_append.mpr ⟨cls.ancestors_nodup.map fun _ _ hsame ↦
      ClassRef.exception.inj hsame, by simp, ?_⟩
    intro ancestor hancestor
    obtain ⟨other, -, rfl⟩ := List.mem_map.mp hancestor
    simp
  getLast?_eq := by simp [linearization]
  hasClass ancestor hancestor := by
    obtain ⟨other, -, rfl⟩ | rfl := mem_linearization_exception.mp hancestor <;> trivial
  isOlder bound _ ancestor hancestor := by
    obtain ⟨other, -, rfl⟩ | rfl := mem_linearization_exception.mp hancestor <;> trivial
  sublist ancestor hancestor := by
    obtain ⟨other, hother, rfl⟩ | rfl := mem_linearization_exception.mp hancestor
    · exact ((ExceptionClass.ancestors_sublist hother).map ClassRef.exception).append_right _
    · exact List.sublist_append_right _ _

theorem mem_linearization_self (heap : Heap) (cls : ClassRef) : cls ∈ heap.linearization cls := by
  cases cls with
  | native kind => cases kind <;> simp [linearization, NativeType.ancestors]
  | exception cls => simp [linearization, cls.mem_ancestors_self]
  | user address => simp [linearization]

theorem Linear.object_mem {cls : ClassRef} (hlinear : heap.Linear cls) :
    .native .object ∈ heap.linearization cls :=
  List.mem_of_getLast? hlinear.getLast?_eq

/-- A class in the merge of the bases comes from the linearization of a base. -/
theorem mem_linearization_base {bases order : List ClassRef} {room : Nat}
    (hmerges : ClassGraph.Merges room (heap.basisLists bases) order) {ancestor : ClassRef} :
    ancestor ∈ order ↔ ∃ base ∈ bases, ancestor ∈ heap.linearization base := by
  rw [hmerges.mem_iff]
  constructor
  · rintro ⟨list, hlist, hancestor⟩
    rcases List.mem_append.mp hlist with hmapped | hall
    · obtain ⟨base, hbase, rfl⟩ := List.mem_map.mp hmapped
      exact ⟨base, hbase, hancestor⟩
    · obtain rfl := List.mem_singleton.mp hall
      exact ⟨ancestor, hancestor, heap.mem_linearization_self ancestor⟩
  · rintro ⟨base, hbase, hancestor⟩
    exact ⟨heap.linearization base,
      List.mem_append_left _ (List.mem_map_of_mem hbase), hancestor⟩

theorem linearization_sublist_merge {bases order : List ClassRef} {room : Nat}
    (hmerges : ClassGraph.Merges room (heap.basisLists bases) order) {base : ClassRef}
    (hbase : base ∈ bases) : (heap.linearization base).Sublist order :=
  hmerges.sublist (List.mem_append_left _ (List.mem_map_of_mem hbase))

theorem bases_sublist_merge {bases order : List ClassRef} {room : Nat}
    (hmerges : ClassGraph.Merges room (heap.basisLists bases) order) : bases.Sublist order :=
  hmerges.sublist (List.mem_append_right _ (List.mem_singleton_self _))

/-- What the linearization computed from linear bases is like, before the class itself is put in
front of it. -/
structure Ancestry (heap : Heap) (bases order : List ClassRef) : Prop where
  nodup : order.Nodup
  length_le : order.length ≤ maxLinearization
  getLast?_eq : order.getLast? = some (.native .object)
  bases_sublist : bases.Sublist order
  sublist : ∀ ancestor ∈ order, (heap.linearization ancestor).Sublist order
  comes_from : ∀ ancestor ∈ order,
    ancestor = .native .object ∨ ∃ base ∈ bases, ancestor ∈ heap.linearization base

theorem ancestry_of_linearize {bases order : List ClassRef}
    (hlinear : ∀ base ∈ bases, heap.Linear base) (horder : heap.linearize bases = .ok order) :
    heap.Ancestry bases order := by
  obtain ⟨rfl, rfl⟩ | ⟨hbases, -, -, hmerge⟩ := (heap.linearize_eq_ok_iff bases order).mp horder
  · exact
      { nodup := List.nodup_singleton _
        length_le := by decide
        getLast?_eq := rfl
        bases_sublist := List.nil_sublist _
        sublist := fun ancestor hancestor ↦ by
          obtain rfl := List.mem_singleton.mp hancestor
          exact List.Sublist.refl _
        comes_from := fun ancestor hancestor ↦ Or.inl (List.mem_singleton.mp hancestor) }
  · have hmerges := ClassGraph.merges_of_merge hmerge
    refine
      { nodup := hmerges.nodup
        length_le := hmerges.length_le
        getLast?_eq := ?_
        bases_sublist := bases_sublist_merge hmerges
        sublist := fun ancestor hancestor ↦ ?_
        comes_from := fun ancestor hancestor ↦ Or.inr
          ((mem_linearization_base hmerges).mp hancestor) }
    · -- The last class stands in the linearization of a base, which ends with `object`.
      obtain ⟨first, hfirst⟩ := List.exists_mem_of_ne_nil bases hbases
      have hnonempty : order ≠ [] :=
        List.ne_nil_of_mem ((bases_sublist_merge hmerges).subset hfirst)
      have hlast := List.getLast?_eq_getLast_of_ne_nil hnonempty
      obtain ⟨base, hbase, hmem⟩ :=
        (mem_linearization_base hmerges).mp (List.getLast_mem hnonempty)
      rw [hlast, getLast?_eq_of_sublist (linearization_sublist_merge hmerges hbase) hmerges.nodup
        (hlinear base hbase).getLast?_eq hlast hmem]
    · obtain ⟨base, hbase, hmem⟩ := (mem_linearization_base hmerges).mp hancestor
      exact ((hlinear base hbase).sublist ancestor hmem).trans
        (linearization_sublist_merge hmerges hbase)

theorem linearization_user {address : Address} {record : ClassRecord}
    (hrecord : heap.userClass? address = some record) :
    heap.linearization (.user address) = .user address :: record.linearization := by
  simp only [linearization, storedLinearization, hrecord]

namespace Hierarchy

/-- The linearization of every class is as it should be, the classes taken by age. -/
theorem linear_user (hhierarchy : heap.Hierarchy) {address : Address}
    (hcls : (heap.userClass? address).isSome) : heap.Linear (.user address) := by
  induction address using Nat.strongRecOn with
  | ind address ih =>
    obtain ⟨record, hrecord⟩ := Option.isSome_iff_exists.mp hcls
    have hgrounded := hhierarchy address record hrecord
    have hlinear : ∀ base ∈ record.bases, heap.Linear base := by
      intro base hbase
      cases base with
      | native kind => exact heap.linear_native kind
      | exception cls => exact heap.linear_exception cls
      | user base =>
        have holder := hgrounded.base_older base hbase
        exact ih base holder.1 holder.2
    have hancestry := ancestry_of_linearize hlinear hgrounded.linearized
    have hbaseOlder : ∀ base ∈ record.bases, IsOlder address base := by
      intro base hbase
      cases base with
      | native | exception => trivial
      | user base => exact (hgrounded.base_older base hbase).1
    have holder : ∀ ancestor ∈ record.linearization, IsOlder address ancestor := by
      intro ancestor hancestor
      obtain rfl | ⟨base, hbase, hmem⟩ := hancestry.comes_from ancestor hancestor
      · trivial
      · exact (hlinear base hbase).isOlder address (hbaseOlder base hbase) ancestor hmem
    have hnonempty : record.linearization ≠ [] := by
      intro hnil
      simpa [hnil] using hancestry.getLast?_eq
    have hwhole := linearization_user hrecord
    refine
      { nodup := ?_, getLast?_eq := ?_, hasClass := ?_, isOlder := ?_, sublist := ?_ } <;>
      rw [hwhole]
    · refine List.nodup_cons.mpr ⟨fun hself ↦ ?_, hancestry.nodup⟩
      exact absurd (holder _ hself) (Nat.lt_irrefl address)
    · rw [List.getLast?_cons_of_ne_nil hnonempty, hancestry.getLast?_eq]
    · intro ancestor hancestor
      rcases List.mem_cons.mp hancestor with rfl | hlater
      · exact hcls
      · obtain rfl | ⟨base, hbase, hmem⟩ := hancestry.comes_from ancestor hlater
        · trivial
        · exact (hlinear base hbase).hasClass ancestor hmem
    · intro bound hbound ancestor hancestor
      rcases List.mem_cons.mp hancestor with rfl | hlater
      · exact hbound
      · have hbelow := holder ancestor hlater
        cases ancestor with
        | native | exception => trivial
        | user ancestor => exact Nat.lt_trans hbelow hbound
    · intro ancestor hancestor
      rcases List.mem_cons.mp hancestor with rfl | hlater
      · rw [hwhole]
      · exact (hancestry.sublist ancestor hlater).cons _

theorem linear (hhierarchy : heap.Hierarchy) {cls : ClassRef} (hcls : heap.HasClass cls) :
    heap.Linear cls := by
  cases cls with
  | native kind => exact heap.linear_native kind
  | exception cls => exact heap.linear_exception cls
  | user address => exact hhierarchy.linear_user hcls

/-- The stored ancestors of a class. -/
theorem ancestry (hhierarchy : heap.Hierarchy) {address : Address} {record : ClassRecord}
    (hrecord : heap.userClass? address = some record) :
    heap.Ancestry record.bases record.linearization := by
  have hgrounded := hhierarchy address record hrecord
  exact ancestry_of_linearize (fun _ hbase ↦ hhierarchy.linear (hgrounded.hasClass_base hbase))
    hgrounded.linearized

/-- The stored ancestors of a class are older than it. -/
theorem isOlder_ancestor (hhierarchy : heap.Hierarchy) {address : Address} {record : ClassRecord}
    (hrecord : heap.userClass? address = some record) {ancestor : ClassRef}
    (hancestor : ancestor ∈ record.linearization) : IsOlder address ancestor := by
  have hlinear := hhierarchy.linear_user (Option.isSome_of_eq_some hrecord)
  have hnodup := hlinear.nodup
  have hbelow := hlinear.isOlder (address + 1) (Nat.lt_succ_self address) ancestor
  rw [linearization_user hrecord] at hnodup hbelow
  cases ancestor with
  | native | exception => trivial
  | user ancestor =>
    have hle : ancestor ≤ address := Nat.le_of_lt_succ (hbelow (List.mem_cons_of_mem _ hancestor))
    refine Nat.lt_of_le_of_ne hle ?_
    rintro rfl
    exact (List.nodup_cons.mp hnodup).1 hancestor

/-! ### Subtyping in a hierarchy -/

theorem isSubtype_iff (hhierarchy : heap.Hierarchy) {cls other : ClassRef}
    (hcls : heap.HasClass cls) :
    heap.isSubtype cls other ↔ other ∈ heap.linearization cls := by
  have hobject := (hhierarchy.linear hcls).object_mem
  cases cls with
  | user address =>
    rw [isSubtype_user]
    simp only [linearization, List.mem_cons] at hobject ⊢
    simp only [Bool.or_eq_true, beq_iff_eq, List.contains_eq_mem, decide_eq_true_eq]
    constructor
    · rintro ((rfl | hsame) | hmem)
      · exact hobject
      · exact Or.inl hsame.symm
      · exact Or.inr hmem
    · rintro (rfl | hmem)
      · exact Or.inl (Or.inr rfl)
      · exact Or.inr hmem
  | native kind =>
    cases other with
    | native other =>
      by_cases htop : other = .object
      · subst htop
        exact ⟨fun _ ↦ hobject, fun _ ↦ by cases kind <;> rfl⟩
      · have hcontains : heap.isSubtype (.native kind) (.native other) =
            kind.ancestors.contains other := by
          cases other <;> first | rfl | exact absurd rfl htop
        simp [hcontains, linearization]
    | exception | user => simp [isSubtype, linearization]
  | exception cls =>
    cases other with
    | native other =>
      by_cases htop : other = .object
      · subst htop
        exact ⟨fun _ ↦ hobject, fun _ ↦ rfl⟩
      · have hfalse : heap.isSubtype (.exception cls) (.native other) = false := by
          cases other <;> first | rfl | exact absurd rfl htop
        simp [hfalse, linearization, htop]
    | exception other => simp [isSubtype, linearization, ExceptionClass.isSubclassOf]
    | user => simp [isSubtype, linearization]

theorem isSubtype_refl (hhierarchy : heap.Hierarchy) {cls : ClassRef} (hcls : heap.HasClass cls) :
    heap.isSubtype cls cls :=
  (hhierarchy.isSubtype_iff hcls).mpr (heap.mem_linearization_self cls)

theorem isSubtype_trans (hhierarchy : heap.Hierarchy) {first second third : ClassRef}
    (hcls : heap.HasClass first) (hfirst : heap.isSubtype first second)
    (hsecond : heap.isSubtype second third) : heap.isSubtype first third := by
  have hlinear := hhierarchy.linear hcls
  have hmem := (hhierarchy.isSubtype_iff hcls).mp hfirst
  have habove := (hhierarchy.isSubtype_iff (hlinear.hasClass second hmem)).mp hsecond
  exact (hhierarchy.isSubtype_iff hcls).mpr ((hlinear.sublist second hmem).subset habove)

end Hierarchy

end Heap

end Metaobject
