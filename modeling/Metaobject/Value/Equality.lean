import Metaobject.Heap
import Metaobject.Number.Binary64

/-!
# Truth and equality

The truth of a value and the equality of two values in a heap. Numbers are equal when they denote
the same number, whatever their form; texts, bytes and tuples by content; lists by their items and
dicts by the values under their keys, whatever the order; every other object only to itself. A list
or dict is equal to itself without a look at its content.

Equality descends through lists and dicts, so it takes as many steps down as the heap has objects
(`Heap.equalWithin`); values that do not contain themselves need no more.
-/

set_option autoImplicit false
set_option relaxedAutoImplicit false

namespace Metaobject

/-! ### Numbers -/

/-- The double of a number; an integer is rounded to one. -/
def Value.float? : Value → Option Float
  | .float number => some number
  | value => value.integer?.map Number.Binary64.ofInt

/-- Equality of numbers: exact between integers, and by their doubles otherwise. -/
def Value.equalNumbers (left right : Value) : Bool :=
  match left.integer?, right.integer? with
  | some first, some second => first == second
  | _, _ => match left.float?, right.float? with
    | some first, some second => first == second
    | _, _ => false

namespace Heap

/-! ### Truth -/

/-- The truth of a value: false for `null`, zero and empty containers, true for all else. -/
def isTrue (heap : Heap) : Value → Bool
  | .null => false
  | .bool truth => truth
  | .int word => word != 0
  | .float number => number != 0.0
  | .text content => !content.isEmpty
  | .bytes content => !content.isEmpty
  | .tuple items => !items.isEmpty
  | .list address => !(heap.items address).isEmpty
  | .dict address => !(heap.entries address).isEmpty
  | _ => true

/-! ### Equality -/

mutual

/-- Equality of values, given the equality of the contents of two lists or two dicts. -/
def equalOver (contents : Value → Value → Bool) : Value → Value → Bool
  | .null, .null => true
  | .ellipsis, .ellipsis => true
  | .text left, .text right => left == right
  | .bytes left, .bytes right => left == right
  | .tuple left, .tuple right => equalItems contents left right
  | .list left, .list right => left == right || contents (.list left) (.list right)
  | .dict left, .dict right => left == right || contents (.dict left) (.dict right)
  | .builtin left, .builtin right => left == right
  | .userClass left, .userClass right => left == right
  | .object left, .object right => left == right
  | .function left, .function right => left == right
  | .method left, .method right => left == right
  | .cell left, .cell right => left == right
  | .code left, .code right => left == right
  | .moduleObject left, .moduleObject right => left == right
  | .iterator left, .iterator right => left == right
  | .exception left, .exception right => left == right
  | left, right => left.equalNumbers right

/-- Equality of items in order. -/
def equalItems (contents : Value → Value → Bool) : List Value → List Value → Bool
  | [], [] => true
  | left :: lefts, right :: rights =>
    equalOver contents left right && equalItems contents lefts rights
  | _, _ => false

end

/-- Whether every key of the first entries has an equal value in the second, and there are equally
many keys. -/
def equalEntries (equal : Value → Value → Bool) (left right : Entries Value) : Bool :=
  left.size == right.size && left.toList.all fun (key, content) =>
    match right.find? key with
    | some other => equal other content
    | none => false

/-- Equality of the contents of two lists or two dicts, given the equality of what they hold. -/
def equalContents (heap : Heap) (equal : Value → Value → Bool) : Value → Value → Bool
  | .list left, .list right => (heap.items left).isEqv (heap.items right) equal
  | .dict left, .dict right => equalEntries equal (heap.entries left) (heap.entries right)
  | _, _ => false

/-- Equality of values that hold lists and dicts at most `steps` deep. -/
def equalWithin (heap : Heap) : Nat → Value → Value → Bool
  | 0 => equalOver fun _ _ => false
  | steps + 1 => equalOver (heap.equalContents (heap.equalWithin steps))

/-- Equality of values. -/
def equal (heap : Heap) (left right : Value) : Bool := heap.equalWithin heap.size left right

/-- Sameness: identity of lists and of dicts, and equality of other values. -/
def same (heap : Heap) : Value → Value → Bool
  | .list left, .list right => left == right
  | .dict left, .dict right => left == right
  | left, right => heap.equal left right

end Heap

end Metaobject
