import Metaobject.Proofs.Heap.WellFormed
import Metaobject.Value.Equality

/-!
# Integers in their one form

An integer value is canonical when it is long only if it fits no word (`Value.Canonical`); of a
tuple this is asked of everything in it. What a heap holds is canonical (`Heap.Holds.canonical`),
and so is everything that the objects of a well-formed heap have in them
(`Heap.WellFormed.canonical`).

For canonical values truth, conversion to a word and equality are matters of the integer alone
(`Canonical.isTrue_eq`, `word?_eq`, `Heap.equal_eq_of_integer?`), and an integer that is no truth
value is written in one way only (`Canonical.eq_of_integer?`).
-/

set_option autoImplicit false
set_option relaxedAutoImplicit false

namespace Metaobject

namespace Value

/-! ### Canonical values -/

/-- Whether a value is another one or has it in it: tuples carry their items. -/
inductive Contains : Value → Value → Prop
  | self (value : Value) : Contains value value
  | item {items : List Value} {item part : Value} (hitem : item ∈ items)
      (hpart : Contains item part) : Contains (.tuple items) part

/-- Whether every long integer in a value lies outside of the range of words. -/
def Canonical (value : Value) : Prop :=
  ∀ integer, value.Contains (.long integer) →
    integer < -0x8000000000000000 ∨ 0x8000000000000000 ≤ integer

theorem fitsWord_iff (integer : Int) :
    fitsWord integer ↔ -0x8000000000000000 ≤ integer ∧ integer < 0x8000000000000000 := by
  rw [fitsWord, decide_eq_true_eq]

theorem fitsWord_toInt (word : Int64) : fitsWord word.toInt := by
  rw [fitsWord_iff]
  exact ⟨word.le_toInt, word.toInt_lt⟩

/-- The one form of an integer denotes it. -/
@[simp] theorem integer?_ofInt (integer : Int) : (ofInt integer).integer? = some integer := by
  unfold ofInt
  split
  · rename_i hfits
    rw [fitsWord_iff] at hfits
    exact congrArg some (Int64.toInt_ofInt_of_le hfits.1 hfits.2)
  · rfl

section

variable {value other : Value} {integer otherInteger : Int}

/-- A canonical integer is long exactly if it fits no word. -/
theorem Canonical.eq_long_iff (hcanonical : value.Canonical)
    (hinteger : value.integer? = some integer) :
    value = .long integer ↔ fitsWord integer = false := by
  cases value with
  | bool truth =>
    obtain rfl := Option.some.inj hinteger
    cases truth <;> simp [fitsWord]
  | int word =>
    obtain rfl := Option.some.inj hinteger
    simp [fitsWord_toInt]
  | long wide =>
    obtain rfl : wide = integer := Option.some.inj hinteger
    have hwide := hcanonical wide (.self _)
    refine ⟨fun _ ↦ ?_, fun _ ↦ rfl⟩
    rw [fitsWord, decide_eq_false_iff_not]
    omega
  | _ => cases hinteger

/-- The truth of an integer: it is not zero. -/
theorem Canonical.isTrue_eq (hcanonical : value.Canonical)
    (hinteger : value.integer? = some integer) (heap : Heap) :
    heap.isTrue value = decide (integer ≠ 0) := by
  cases value with
  | bool truth =>
    obtain rfl := Option.some.inj hinteger
    cases truth <;> rfl
  | int word =>
    obtain rfl : word.toInt = integer := Option.some.inj hinteger
    have hzero : word = 0 ↔ word.toInt = 0 := by
      rw [← Int64.toInt_inj, Int64.toInt_zero]
    by_cases hword : word = 0
    · simp [Heap.isTrue, hword]
    · simp [Heap.isTrue, hword, hzero.not.mp hword]
  | long wide =>
    obtain rfl : wide = integer := Option.some.inj hinteger
    have hwide := hcanonical wide (.self _)
    have hnonzero : wide ≠ 0 := by omega
    simp [Heap.isTrue, hnonzero]
  | _ => cases hinteger

/-- An integer as a word, if it fits one. -/
theorem word?_eq (hinteger : value.integer? = some integer) :
    value.word? = if -0x8000000000000000 ≤ integer ∧ integer < 0x8000000000000000
      then some integer else none := by
  rw [word?, hinteger, Option.filter_some, fitsWord]
  simp only [decide_eq_true_eq]

/-- Integers that are no truth values are written alike if they are the same. -/
theorem Canonical.eq_of_integer? (hcanonical : value.Canonical) (hother : other.Canonical)
    (hinteger : value.integer? = some integer) (hsame : other.integer? = some integer)
    (hvalue : ∀ truth, value ≠ .bool truth) (hplain : ∀ truth, other ≠ .bool truth) :
    value = other := by
  have hlong := hcanonical.eq_long_iff hinteger
  have hotherLong := hother.eq_long_iff hsame
  by_cases hfits : fitsWord integer = false
  · rw [hlong.mpr hfits, hotherLong.mpr hfits]
  · cases value with
    | bool truth => exact absurd rfl (hvalue truth)
    | int word =>
      cases other with
      | bool truth => exact absurd rfl (hplain truth)
      | int otherWord =>
        have hword : word.toInt = otherWord.toInt :=
          Option.some.inj (hinteger.trans hsame.symm)
        rw [Int64.toInt_inj.mp hword]
      | long wide =>
        obtain rfl : wide = integer := Option.some.inj hsame
        exact absurd (hotherLong.mp rfl) hfits
      | _ => cases hsame
    | long wide =>
      obtain rfl : wide = integer := Option.some.inj hinteger
      exact absurd (hlong.mp rfl) hfits
    | _ => cases hinteger

/-- Integers and truth values are equal if they are the same integer. -/
theorem equalNumbers_eq (hinteger : value.integer? = some integer)
    (hother : other.integer? = some otherInteger) :
    value.equalNumbers other = decide (integer = otherInteger) := by
  rw [equalNumbers, hinteger, hother]
  exact beq_eq_decide integer otherInteger

end

end Value

namespace Heap

variable {heap : Heap} {address : Address}

theorem equalOver_eq_equalNumbers {contents : Value → Value → Bool} {left right : Value}
    {integer otherInteger : Int} (hleft : left.integer? = some integer)
    (hright : right.integer? = some otherInteger) :
    equalOver contents left right = left.equalNumbers right := by
  cases left with
  | bool | int | long =>
    cases right with
    | bool | int | long => rw [equalOver] <;> simp
    | _ => cases hright
  | _ => cases hleft

theorem equal_eq_of_integer? {left right : Value} {integer otherInteger : Int}
    (hleft : left.integer? = some integer) (hright : right.integer? = some otherInteger) :
    heap.equal left right = decide (integer = otherInteger) := by
  rw [← Value.equalNumbers_eq hleft hright, equal]
  cases heap.size <;> exact equalOver_eq_equalNumbers hleft hright

/-! ### Canonical heaps -/

theorem Holds.of_contains {value part : Value} (hcontains : value.Contains part)
    (hheld : heap.Holds value) : heap.Holds part := by
  induction hcontains with
  | self => exact hheld
  | item hitem _ ih => exact ih (holds_tuple.mp hheld _ hitem)

theorem Holds.canonical {value : Value} (hheld : heap.Holds value) : value.Canonical := by
  intro integer hcontains
  cases hheld.of_contains hcontains with
  | long _ hwide =>
    rw [Value.fitsWord, decide_eq_false_iff_not] at hwide
    omega

end Heap

/-- The values that an object has in it. -/
def Object.values : Object → List Value
  | .list items => items
  | .dict entries => entries.toList.map Prod.snd
  | .cell content => content.toList
  | .iterator remaining => remaining
  | .function record => record.defaults
  | .method receiver callee => [receiver, callee]
  | _ => []

theorem Object.Sound.holds_values {heap : Heap} {object : Object} (hsound : object.Sound heap) :
    ∀ value ∈ object.values, heap.Holds value := by
  intro value hvalue
  cases object with
  | list | iterator => exact hsound value hvalue
  | dict =>
    obtain ⟨pair, hpair, rfl⟩ := List.mem_map.mp hvalue
    exact hsound pair hpair
  | cell => exact hsound value (Option.mem_toList.mp hvalue)
  | function => exact FunctionRecord.Sound.defaults hsound value hvalue
  | method =>
    rcases List.mem_pair.mp hvalue with rfl | rfl
    · exact hsound.1
    · exact hsound.2
  | _ => cases hvalue

/-- All integers in the objects of a well-formed heap are in their one form. -/
theorem Heap.WellFormed.canonical {heap : Heap} (hformed : heap.WellFormed) {address : Address}
    {object : Object} (hobject : heap.get? address = some object) :
    ∀ value ∈ object.values, value.Canonical :=
  fun value hvalue ↦ ((hformed.sound address object hobject).holds_values value hvalue).canonical

end Metaobject
