import Mathlib.Data.List.Forall2
import Metaobject.Proofs.Entries
import Metaobject.Proofs.Heap.Nesting

/-!
# Equality is an equivalence

Equality of the values of a heap that have no double in them and do not contain themselves
(`Heap.Comparable`). Such values are equal if they match (`Comparable.equal_iff`): tuples by their
items and lists by theirs, dicts by the values under the same keys in whatever order, integers and
truth values by the integer, and everything else only with itself.

A list or a dict is taken for equal to itself without a look at its content, which agrees with this
because equality is reflexive (`Comparable.equal_self`). A dict is compared by the keys of one side
only, which is no less symmetric: as many distinct keys leave none over on the other side
(`equalEntries_iff`). The parts decide for the whole (`Matches.symm`, `Matches.trans`), and so
equality is an equivalence (`equal_equivalence`).
-/

set_option autoImplicit false
set_option relaxedAutoImplicit false

namespace Metaobject

/-- Whether a value is compared as a whole: it is no number, tuple, list or dict. -/
def Value.isSingle : Value → Bool
  | .bool _ | .int _ | .long _ | .float _ | .tuple _ | .list _ | .dict _ => false
  | _ => true

theorem Value.integer?_eq_none_of_isSingle {value : Value} (hsingle : value.isSingle) :
    value.integer? = none := by
  cases value <;> first | rfl | cases hsingle

namespace Heap

variable {heap : Heap} {value left middle right : Value} {address : Address}

/-! ### Lists and dicts, given the equality of their contents -/

theorem isEqv_iff_forall₂ {equal : Value → Value → Bool} {lefts rights : List Value} :
    lefts.isEqv rights equal ↔ lefts.Forall₂ (fun left right ↦ equal left right) rights := by
  induction lefts generalizing rights with
  | nil => cases rights <;> simp [List.isEqv]
  | cons left lefts ih => cases rights <;> simp [List.isEqv, ih]

/-- Dicts with the same keys and with equal values under them, compared from the second to the
first. -/
theorem equalEntries_iff {equal : Value → Value → Bool} {lefts rights : Entries Value} :
    equalEntries equal lefts rights ↔ (∀ key, lefts.contains key ↔ rights.contains key) ∧
      ∀ key left right, lefts.find? key = some left → rights.find? key = some right →
        equal right left := by
  rw [equalEntries, Bool.and_eq_true, beq_iff_eq, List.all_eq_true]
  constructor
  · rintro ⟨hsize, hall⟩
    have hfound : ∀ key left, lefts.find? key = some left →
        ∃ right, rights.find? key = some right ∧ equal right left := by
      intro key left hleft
      have hpair := hall (key, left) ((lefts.mem_toList_iff key left).mpr hleft)
      cases hright : rights.find? key with
      | none => simp only [hright] at hpair; cases hpair
      | some right => simp only [hright] at hpair; exact ⟨right, rfl, hpair⟩
    refine ⟨Entries.contains_iff_of_size hsize fun key hkey ↦ ?_,
      fun key left right hleft hright ↦ ?_⟩
    · obtain ⟨left, hleft⟩ := (lefts.contains_iff key).mp hkey
      obtain ⟨right, hright, -⟩ := hfound key left hleft
      exact (rights.contains_iff key).mpr ⟨right, hright⟩
    · obtain ⟨other, hother, hequal⟩ := hfound key left hleft
      obtain rfl : other = right := Option.some.inj (hother.symm.trans hright)
      exact hequal
  · rintro ⟨hkeys, hequal⟩
    refine ⟨Entries.size_eq_of_contains_iff hkeys, ?_⟩
    rintro ⟨key, left⟩ hpair
    have hleft := (lefts.mem_toList_iff key left).mp hpair
    obtain ⟨right, hright⟩ := (rights.contains_iff key).mp
      ((hkeys key).mp ((lefts.contains_iff key).mpr ⟨left, hleft⟩))
    simp only [hright]
    exact hequal key left right hleft hright

/-! ### Comparable values -/

/-- Whether a value has no double in it and unfolds as equality goes down in it. -/
structure Comparable (heap : Heap) (value : Value) : Prop extends
    heap.Unfolds heap.comparedParts value where
  exact : ∀ part, Relation.ReflTransGen (Follows heap.comparedParts) value part →
    ∀ number, part ≠ .float number

namespace Comparable

theorem of_mem (hcomparable : heap.Comparable value) {part : Value}
    (hpart : part ∈ heap.comparedParts value) : heap.Comparable part where
  toUnfolds := hcomparable.toUnfolds.of_mem hpart
  exact other hother := hcomparable.exact other (.head hpart hother)

/-- A value is comparable when its parts are, unless it is a double. -/
theorem of_parts (hexact : ∀ number, value ≠ .float number)
    (hplaced : ∀ address, value.container? = some address → heap.containerAt? address = some value)
    (hparts : ∀ part ∈ heap.comparedParts value, heap.Comparable part) : heap.Comparable value where
  toUnfolds := .of_parts hplaced fun part hpart ↦ (hparts part hpart).toUnfolds
  exact other hother := by
    rcases hother.cases_head with rfl | ⟨part, hpart, hother⟩
    · exact hexact
    · exact (hparts part hpart).exact other hother

theorem of_isAtom (hatom : value.isAtom) (hexact : ∀ number, value ≠ .float number) :
    heap.Comparable value := by
  refine .of_parts hexact (fun address hcontainer ↦ ?_) fun part hpart ↦ ?_
  · rw [Value.container?_of_isAtom hatom] at hcontainer
    cases hcontainer
  · have hmem := heap.comparedParts_subset value hpart
    rw [parts_of_isAtom hatom] at hmem
    cases hmem

theorem of_containerAt? (address : Address) (hat : heap.containerAt? address = some value)
    (hparts : ∀ part ∈ heap.comparedParts value, heap.Comparable part) : heap.Comparable value := by
  have hcontainer := container?_of_containerAt? hat
  refine .of_parts ?_ (fun other hother ↦ ?_) hparts
  · rintro number rfl
    cases hcontainer
  · obtain rfl : address = other := Option.some.inj (hcontainer.symm.trans hother)
    exact hat

theorem ne_float (hcomparable : heap.Comparable value) (number : Float) : value ≠ .float number :=
  hcomparable.exact value .refl number

/-- Induction on comparable values: what holds of the parts holds of the whole. -/
theorem induction {motive : Value → Prop}
    (hstep : ∀ value, heap.Comparable value → (∀ part ∈ heap.comparedParts value, motive part) →
      motive value)
    (hcomparable : heap.Comparable value) : motive value := by
  refine hcomparable.toUnfolds.induction
    (motive := fun _ value ↦ heap.Comparable value → motive value) heap.comparedParts_subset
    (fun _ value _ _ ih hvalue ↦ ?_) (fun _ value _ _ _ ih hvalue ↦ ?_)
    (heap.card_containersIn_le heap.comparedParts value) hcomparable
  · exact hstep value hvalue fun part hpart ↦ ih part hpart (hvalue.of_mem hpart)
  · exact hstep value hvalue fun part hpart ↦ ih part hpart (hvalue.of_mem hpart)

end Comparable

/-- In a well-formed heap the values without doubles that do not contain themselves are
comparable. -/
theorem WellFormed.comparable (hformed : heap.WellFormed) (hheld : heap.Holds value)
    (hacyclic : ∀ part, Relation.ReflTransGen (Follows heap.comparedParts) value part →
      ¬Relation.TransGen (Follows heap.comparedParts) part part)
    (hexact : ∀ part, Relation.ReflTransGen (Follows heap.comparedParts) value part →
      ∀ number, part ≠ .float number) : heap.Comparable value where
  toUnfolds := hformed.unfolds hheld heap.comparedParts_subset hacyclic
  exact := hexact

/-! ### What equality compares -/

/-- What equality looks at in two values, one level down: the integers of numbers, the items of
tuples and lists in order, what dicts have under the same keys, the second against the first, and
for all else whether they are the same. -/
inductive Matches (heap : Heap) : Value → Value → Prop
  | number {left right : Value} {integer : Int} (hleft : left.integer? = some integer)
      (hright : right.integer? = some integer) : Matches heap left right
  | tuple {lefts rights : List Value}
      (hitems : lefts.Forall₂ (fun left right ↦ heap.equal left right) rights) :
      Matches heap (.tuple lefts) (.tuple rights)
  | list {first second : Address}
      (hitems : (heap.items first).Forall₂ (fun left right ↦ heap.equal left right)
        (heap.items second)) :
      Matches heap (.list first) (.list second)
  | dict {first second : Address}
      (hkeys : ∀ key, (heap.entries first).contains key ↔ (heap.entries second).contains key)
      (hequal : ∀ key left right, (heap.entries first).find? key = some left →
        (heap.entries second).find? key = some right → heap.equal right left) :
      Matches heap (.dict first) (.dict second)
  | single {value : Value} (hsingle : value.isSingle) : Matches heap value value

theorem mem_comparedParts_of_find? {key : String}
    (hfound : (heap.entries address).find? key = some value) :
    value ∈ heap.comparedParts (.dict address) :=
  List.mem_map_of_mem (((heap.entries address).mem_toList_iff key value).mpr hfound)

theorem equal_tuple_iff {lefts rights : List Value} (hleft : heap.Comparable (.tuple lefts)) :
    heap.equal (.tuple lefts) (.tuple rights) ↔
      lefts.Forall₂ (fun left right ↦ heap.equal left right) rights := by
  have hitems : ∀ item ∈ lefts,
      AgreeOn (equalOver (heap.equalContents heap.equal)) heap.equal item :=
    fun item hitem ↦ (hleft.of_mem hitem).toUnfolds.agreeOn_equal
  rw [← (hleft.toUnfolds.agreeOn_equal _).1, equalOver, equalItems_eq_isEqv,
    (isEqv_congr hitems rights).1, isEqv_iff_forall₂]

namespace Comparable

/-- Comparable values are equal to themselves. -/
theorem equal_self (hcomparable : heap.Comparable value) : heap.equal value value := by
  refine hcomparable.induction (motive := fun value ↦ heap.equal value value)
    fun value hvalue ih ↦ ?_
  cases value with
  | tuple items =>
    rw [equal_tuple_iff hvalue, List.forall₂_same]
    exact ih
  | float number => exact absurd rfl (hvalue.ne_float number)
  | _ =>
    rw [← (hvalue.toUnfolds.agreeOn_equal _).1]
    simp [equalOver, Value.equalNumbers, Value.integer?]

end Comparable

theorem equal_list_iff {first second : Address} (hleft : heap.Comparable (.list first)) :
    heap.equal (.list first) (.list second) ↔
      (heap.items first).Forall₂ (fun left right ↦ heap.equal left right) (heap.items second) := by
  rw [← (hleft.toUnfolds.agreeOn_equal _).1, equalOver, Bool.or_eq_true, beq_iff_eq,
    equalContents, isEqv_iff_forall₂, or_iff_right_iff_imp]
  rintro rfl
  exact List.forall₂_same.mpr fun item hitem ↦ (hleft.of_mem hitem).equal_self

/-- A dict has the same keys as itself and equal values under them: that it is taken for equal to
itself without a look at its content changes nothing. -/
theorem equal_dict_iff {first second : Address} (hleft : heap.Comparable (.dict first)) :
    heap.equal (.dict first) (.dict second) ↔
      (∀ key, (heap.entries first).contains key ↔ (heap.entries second).contains key) ∧
      ∀ key left right, (heap.entries first).find? key = some left →
        (heap.entries second).find? key = some right → heap.equal right left := by
  rw [← (hleft.toUnfolds.agreeOn_equal _).1, equalOver, Bool.or_eq_true, beq_iff_eq,
    equalContents, equalEntries_iff, or_iff_right_iff_imp]
  rintro rfl
  refine ⟨fun _ ↦ Iff.rfl, fun key left right hfound hother ↦ ?_⟩
  obtain rfl : left = right := Option.some.inj (hfound.symm.trans hother)
  exact (hleft.of_mem (mem_comparedParts_of_find? hfound)).equal_self

theorem float?_eq_none (hexact : ∀ number, value ≠ .float number)
    (hinteger : value.integer? = none) : value.float? = none := by
  cases value with
  | float number => exact absurd rfl (hexact number)
  | _ => rw [Value.float?, hinteger] <;> first | rfl | exact hexact

/-- Without doubles the comparison of numbers is one of integers. -/
theorem exists_integer_of_equalNumbers (hleft : ∀ number, left ≠ .float number)
    (hright : ∀ number, right ≠ .float number) (hequal : left.equalNumbers right) :
    ∃ integer, left.integer? = some integer ∧ right.integer? = some integer := by
  rw [Value.equalNumbers] at hequal
  cases hfirst : left.integer? with
  | none => simp [hfirst, float?_eq_none hleft hfirst] at hequal
  | some first =>
    cases hsecond : right.integer? with
    | none => simp [hfirst, hsecond, float?_eq_none hright hsecond] at hequal
    | some second =>
      simp only [hfirst, hsecond, beq_iff_eq] at hequal
      exact ⟨first, rfl, congrArg some hequal.symm⟩

/-- Comparable values are equal if they match. Equality has a case for two values of every kind and
one for numbers, which all other pairs come to. -/
theorem Comparable.equal_iff (hleft : heap.Comparable left) (hright : heap.Comparable right) :
    heap.equal left right ↔ heap.Matches left right := by
  constructor
  · intro hequal
    have hnext := hequal
    rw [← (hleft.toUnfolds.agreeOn_equal _).1] at hnext
    unfold equalOver at hnext
    split at hnext
    -- Tuples, lists and dicts are compared by content; the last case is for all other pairs.
    case h_5 => exact .tuple ((equal_tuple_iff hleft).mp hequal)
    case h_6 => exact .list ((equal_list_iff hleft).mp hequal)
    case h_7 =>
      obtain ⟨hkeys, hcontents⟩ := (equal_dict_iff hleft).mp hequal
      exact .dict hkeys hcontents
    case h_18 =>
      obtain ⟨integer, hinteger, hother⟩ :=
        exists_integer_of_equalNumbers hleft.ne_float hright.ne_float hnext
      exact .number hinteger hother
    all_goals
      try obtain rfl := eq_of_beq hnext
      exact .single rfl
  · intro hmatches
    cases hmatches with
    | number hinteger hother => exact (equal_eq_of_integer? hinteger hother).trans (by simp)
    | tuple hitems => exact (equal_tuple_iff hleft).mpr hitems
    | list hitems => exact (equal_list_iff hleft).mpr hitems
    | dict hkeys hequal => exact (equal_dict_iff hleft).mpr ⟨hkeys, hequal⟩
    | single => exact hleft.equal_self

/-! ### Symmetry and transitivity -/

section

variable {lefts middles rights : List Value}

/-- Lists of items are equal either way if their items are. -/
theorem equalItems_symm
    (hitems : lefts.Forall₂ (fun left right ↦ heap.equal left right) rights)
    (hparts : ∀ left ∈ lefts, ∀ right ∈ rights, heap.equal left right = heap.equal right left) :
    rights.Forall₂ (fun left right ↦ heap.equal left right) lefts := by
  obtain ⟨hlength, hitems⟩ := List.forall₂_iff_get.mp hitems
  refine List.forall₂_iff_get.mpr ⟨hlength.symm, fun index hright hleft ↦ ?_⟩
  rw [← hparts _ (List.get_mem _ _) _ (List.get_mem _ _)]
  exact hitems index hleft hright

theorem equalItems_trans
    (hfirst : lefts.Forall₂ (fun left right ↦ heap.equal left right) middles)
    (hsecond : middles.Forall₂ (fun left right ↦ heap.equal left right) rights)
    (hparts : ∀ left ∈ lefts, ∀ middle ∈ middles, ∀ right ∈ rights, heap.equal left middle →
      heap.equal middle right → heap.equal left right) :
    lefts.Forall₂ (fun left right ↦ heap.equal left right) rights := by
  obtain ⟨hlength, hfirst⟩ := List.forall₂_iff_get.mp hfirst
  obtain ⟨hlengths, hsecond⟩ := List.forall₂_iff_get.mp hsecond
  refine List.forall₂_iff_get.mpr ⟨hlength.trans hlengths, fun index hleft hright ↦ ?_⟩
  have hmiddle : index < middles.length := hlength ▸ hleft
  exact hparts _ (List.get_mem _ _) _ (List.get_mem _ _) _ (List.get_mem _ _)
    (hfirst index hleft hmiddle) (hsecond index hmiddle hright)

end

/-- Values match either way if their parts are equal either way. -/
theorem Matches.symm (hmatches : heap.Matches left right)
    (hparts : ∀ part ∈ heap.comparedParts left, ∀ other ∈ heap.comparedParts right,
      heap.equal part other = heap.equal other part) : heap.Matches right left := by
  cases hmatches with
  | number hleft hright => exact .number hright hleft
  | tuple hitems => exact .tuple (equalItems_symm hitems hparts)
  | list hitems => exact .list (equalItems_symm hitems hparts)
  | dict hkeys hequal =>
    refine .dict (fun key ↦ (hkeys key).symm) fun key content other hcontent hother ↦ ?_
    rw [hparts _ (mem_comparedParts_of_find? hother) _ (mem_comparedParts_of_find? hcontent)]
    exact hequal key other content hother hcontent
  | single hsingle => exact .single hsingle

theorem Comparable.equal_comm (hleft : heap.Comparable left) (hright : heap.Comparable right) :
    heap.equal left right = heap.equal right left := by
  refine hleft.induction (motive := fun left ↦ ∀ right, heap.Comparable right →
    heap.equal left right = heap.equal right left)
    (fun left hleft ih right hright ↦ ?_) right hright
  have hparts : ∀ part ∈ heap.comparedParts left, ∀ other ∈ heap.comparedParts right,
      heap.equal part other = heap.equal other part :=
    fun part hpart other hother ↦ ih part hpart other (hright.of_mem hother)
  rw [Bool.eq_iff_iff, hleft.equal_iff hright, hright.equal_iff hleft]
  exact ⟨fun hmatches ↦ hmatches.symm hparts, fun hmatches ↦ hmatches.symm
    fun other hother part hpart ↦ (hparts part hpart other hother).symm⟩

/-- Matching is passed on by a value in between if equality of the parts is, either way. -/
theorem Matches.trans (hfirst : heap.Matches left middle) (hsecond : heap.Matches middle right)
    (hparts : ∀ first ∈ heap.comparedParts left, ∀ second ∈ heap.comparedParts middle,
      ∀ third ∈ heap.comparedParts right,
        (heap.equal first second → heap.equal second third → heap.equal first third) ∧
        (heap.equal third second → heap.equal second first → heap.equal third first)) :
    heap.Matches left right := by
  have hforward first hfirst second hsecond third hthird :=
    (hparts first hfirst second hsecond third hthird).1
  cases hfirst with
  | number hleft hmiddle =>
    cases hsecond with
    | number hsame hright =>
      obtain rfl := Option.some.inj (hmiddle.symm.trans hsame)
      exact .number hleft hright
    | single => exact .number hleft hmiddle
    | _ => cases hmiddle
  | tuple hitems =>
    cases hsecond with
    | tuple hothers => exact .tuple (equalItems_trans hitems hothers hforward)
    | number hmiddle => cases hmiddle
    | single => exact .tuple hitems
  | list hitems =>
    cases hsecond with
    | list hothers => exact .list (equalItems_trans hitems hothers hforward)
    | number hmiddle => cases hmiddle
    | single => exact .list hitems
  | dict hkeys hequal =>
    cases hsecond with
    | dict hothers hcontents =>
      refine .dict (fun key ↦ (hkeys key).trans (hothers key))
        fun key first third hfirst hthird ↦ ?_
      -- Dicts are compared from the second to the first, so their parts are passed on backwards.
      obtain ⟨second, hsecond⟩ := (Entries.contains_iff _ key).mp
        ((hkeys key).mp ((Entries.contains_iff _ key).mpr ⟨first, hfirst⟩))
      exact (hparts first (mem_comparedParts_of_find? hfirst) second
        (mem_comparedParts_of_find? hsecond) third (mem_comparedParts_of_find? hthird)).2
        (hcontents key second third hsecond hthird) (hequal key first second hfirst hsecond)
    | number hmiddle => cases hmiddle
    | single => exact .dict hkeys hequal
  | single => exact hsecond

theorem Comparable.equal_trans (hleft : heap.Comparable left) (hmiddle : heap.Comparable middle)
    (hright : heap.Comparable right) (hfirst : heap.equal left middle)
    (hsecond : heap.equal middle right) : heap.equal left right := by
  refine hleft.induction (motive := fun left ↦ ∀ middle right, heap.Comparable middle →
    heap.Comparable right → heap.equal left middle → heap.equal middle right →
      heap.equal left right) (fun left hleft ih middle right hmiddle hright hfirst hsecond ↦ ?_)
    middle right hmiddle hright hfirst hsecond
  rw [hleft.equal_iff hmiddle] at hfirst
  rw [hmiddle.equal_iff hright] at hsecond
  rw [hleft.equal_iff hright]
  refine hfirst.trans hsecond fun first hfirst second hsecond third hthird ↦ ?_
  have hforward := ih first hfirst second third (hmiddle.of_mem hsecond) (hright.of_mem hthird)
  refine ⟨hforward, fun hthirds hseconds ↦ ?_⟩
  rw [(hright.of_mem hthird).equal_comm (hleft.of_mem hfirst)]
  rw [(hright.of_mem hthird).equal_comm (hmiddle.of_mem hsecond)] at hthirds
  rw [(hmiddle.of_mem hsecond).equal_comm (hleft.of_mem hfirst)] at hseconds
  exact hforward hseconds hthirds

/-! ### Equality as a relation -/

theorem matches_integer_iff {integer : Int} (hinteger : left.integer? = some integer) :
    heap.Matches left right ↔ right.integer? = some integer := by
  refine ⟨fun hmatches ↦ ?_, .number hinteger⟩
  cases hmatches with
  | number hleft hright => rw [hright, ← hleft, hinteger]
  | single => exact hinteger
  | _ => cases hinteger

theorem matches_tuple_iff {lefts : List Value} :
    heap.Matches (.tuple lefts) right ↔ ∃ rights, right = .tuple rights ∧
      lefts.Forall₂ (fun left right ↦ heap.equal left right) rights := by
  constructor
  · intro hmatches
    cases hmatches with
    | tuple hitems => exact ⟨_, rfl, hitems⟩
    | number hleft => cases hleft
    | single hsingle => cases hsingle
  · rintro ⟨rights, rfl, hitems⟩
    exact .tuple hitems

theorem matches_list_iff {first : Address} :
    heap.Matches (.list first) right ↔ ∃ second, right = .list second ∧
      (heap.items first).Forall₂ (fun left right ↦ heap.equal left right) (heap.items second) := by
  constructor
  · intro hmatches
    cases hmatches with
    | list hitems => exact ⟨_, rfl, hitems⟩
    | number hleft => cases hleft
    | single hsingle => cases hsingle
  · rintro ⟨second, rfl, hitems⟩
    exact .list hitems

theorem matches_dict_iff {first : Address} :
    heap.Matches (.dict first) right ↔ ∃ second, right = .dict second ∧
      (∀ key, (heap.entries first).contains key ↔ (heap.entries second).contains key) ∧
      ∀ key content other, (heap.entries first).find? key = some content →
        (heap.entries second).find? key = some other → heap.equal other content := by
  constructor
  · intro hmatches
    cases hmatches with
    | dict hkeys hequal => exact ⟨_, rfl, hkeys, hequal⟩
    | number hleft => cases hleft
    | single hsingle => cases hsingle
  · rintro ⟨second, rfl, hkeys, hequal⟩
    exact .dict hkeys hequal

theorem matches_single_iff (hsingle : left.isSingle) : heap.Matches left right ↔ left = right := by
  constructor
  · intro hmatches
    cases hmatches with
    | number hleft =>
      rw [Value.integer?_eq_none_of_isSingle hsingle] at hleft
      cases hleft
    | single => rfl
    | _ => cases hsingle
  · rintro rfl
    exact .single hsingle

/-- Equality is an equivalence of the comparable values of a heap. It is decided by the integers of
numbers, by the items of tuples and of lists, and by what dicts have under the same keys, also for a
list or a dict that is compared with itself; all else is equal only to itself. -/
theorem equal_equivalence (heap : Heap) :
    Equivalence (fun left right : {value : Value // heap.Comparable value} ↦
      heap.equal left right = true) ∧
    ∀ left right : Value, heap.Comparable left → heap.Comparable right →
      (∀ integer, left.integer? = some integer →
        (heap.equal left right ↔ right.integer? = some integer)) ∧
      (∀ lefts, left = .tuple lefts → (heap.equal left right ↔ ∃ rights, right = .tuple rights ∧
        lefts.Forall₂ (fun left right ↦ heap.equal left right) rights)) ∧
      (∀ first, left = .list first → (heap.equal left right ↔ ∃ second, right = .list second ∧
        (heap.items first).Forall₂ (fun left right ↦ heap.equal left right) (heap.items second))) ∧
      (∀ first, left = .dict first → (heap.equal left right ↔ ∃ second, right = .dict second ∧
        (∀ key, (heap.entries first).contains key ↔ (heap.entries second).contains key) ∧
        ∀ key content other, (heap.entries first).find? key = some content →
          (heap.entries second).find? key = some other → heap.equal content other)) ∧
      (left.isSingle → (heap.equal left right ↔ left = right)) := by
  constructor
  · exact ⟨fun value ↦ value.2.equal_self,
      fun {left right} ↦ (left.2.equal_comm right.2).symm.trans,
      fun {left middle right} ↦ left.2.equal_trans middle.2 right.2⟩
  · intro left right hleft hright
    rw [hleft.equal_iff hright]
    refine ⟨fun integer ↦ matches_integer_iff, ?_, ?_, ?_, matches_single_iff⟩
    · rintro lefts rfl
      exact matches_tuple_iff
    · rintro first rfl
      exact matches_list_iff
    · rintro first rfl
      rw [matches_dict_iff]
      refine exists_congr fun second ↦ and_congr_right fun hsecond ↦ and_congr_right fun _ ↦
        forall₃_congr fun key content other ↦ forall₂_congr fun hcontent hother ↦ ?_
      subst hsecond
      rw [(hleft.of_mem (mem_comparedParts_of_find? hcontent)).equal_comm
        (hright.of_mem (mem_comparedParts_of_find? hother))]

/-! ### Dicts in different orders -/

/-- A list of a truth value, one of an integer, and two dicts that each hold one of them. -/
def shuffled : Heap := ⟨#[.list [.bool true], .list [.int 1],
  .dict ⟨[("item", .list 0), ("rest", .null)], by decide⟩,
  .dict ⟨[("rest", .null), ("item", .list 1)], by decide⟩]⟩

/-- The dicts hold equal values under the same keys. -/
theorem equal_equivalence_shuffled :
    shuffled.Comparable (.dict 2) ∧ shuffled.Comparable (.dict 3) ∧
      shuffled.equal (.dict 2) (.dict 3) ∧ shuffled.equal (.dict 3) (.dict 2) ∧
      ¬shuffled.equal (.dict 2) (.list 0) := by
  have hone : shuffled.Comparable (.int 1) := .of_isAtom rfl nofun
  have htrue : shuffled.Comparable (.bool true) := .of_isAtom rfl nofun
  have hnull : shuffled.Comparable .null := .of_isAtom rfl nofun
  have hfirst : shuffled.Comparable (.list 0) :=
    .of_containerAt? 0 rfl (List.forall_mem_singleton.mpr htrue)
  have hsecond : shuffled.Comparable (.list 1) :=
    .of_containerAt? 1 rfl (List.forall_mem_singleton.mpr hone)
  have hleft : shuffled.Comparable (.dict 2) :=
    .of_containerAt? 2 rfl (List.forall_mem_cons.mpr ⟨hfirst, List.forall_mem_singleton.mpr hnull⟩)
  have hright : shuffled.Comparable (.dict 3) :=
    .of_containerAt? 3 rfl (List.forall_mem_cons.mpr ⟨hnull, List.forall_mem_singleton.mpr hsecond⟩)
  obtain ⟨hequivalence, hkinds⟩ := equal_equivalence shuffled
  have hnumbers : shuffled.equal (.bool true) (.int 1) :=
    ((hkinds _ _ htrue hone).1 1 rfl).mpr rfl
  have hlists : shuffled.equal (.list 0) (.list 1) :=
    ((hkinds _ _ hfirst hsecond).2.2.1 0 rfl).mpr ⟨1, rfl, .cons hnumbers .nil⟩
  obtain ⟨-, -, -, hdict, -⟩ := hkinds _ _ hleft hright
  have hdicts : shuffled.equal (.dict 2) (.dict 3) := by
    refine (hdict 2 rfl).mpr ⟨3, rfl, ?_, ?_⟩
    · intro key
      rw [Entries.contains_iff_mem_keys, Entries.contains_iff_mem_keys]
      exact (List.Perm.swap "rest" "item" []).mem_iff
    · intro key content other hcontent hother
      rcases List.mem_pair.mp ((Entries.mem_toList_iff _ key content).mpr hcontent) with
        hpair | hpair
      · obtain ⟨rfl, rfl⟩ := Prod.mk.inj hpair
        obtain rfl : .list 1 = other := Option.some.inj hother
        exact hlists
      · obtain ⟨rfl, rfl⟩ := Prod.mk.inj hpair
        obtain rfl : .null = other := Option.some.inj hother
        exact hnull.equal_self
  refine ⟨hleft, hright, hdicts, ?_, fun hsame ↦ ?_⟩
  · exact hequivalence.symm (x := ⟨_, hleft⟩) (y := ⟨_, hright⟩) hdicts
  · obtain ⟨-, -, -, hother, -⟩ := hkinds _ _ hleft hfirst
    obtain ⟨_, hkind, -⟩ := (hother 2 rfl).mp hsame
    cases hkind

end Heap

end Metaobject
