import Metaobject.Capability

/-!
# Length and iteration

Lengths of containers and the items of iterables. Native iterables give an iterator over the items
they have at that moment; instances of user classes iterate by the capabilities `__iter__` and
`__next__`. One step of an iterator gives an item or finds it exhausted (`Step`); only a
`StopIteration` itself, not one of a subclass, means exhaustion.
-/

set_option autoImplicit false
set_option relaxedAutoImplicit false

namespace Metaobject.Operation

/-! ### Length -/

/-- The length of a native container. -/
def nativeLength? (heap : Heap) : Value → Option Nat
  | .text content => some content.length
  | .bytes content => some content.length
  | .tuple items => some items.length
  | .list address => some (heap.items address).length
  | .dict address => some (heap.entries address).size
  | _ => none

/-- The length that the answer of `__len__` stands for: an integer that is not negative and fits an
index. -/
def lengthOf (heap : Heap) : Value → Except Exception Nat
  | .long value =>
    if value < 0 then .error (.valueError "__len__() should return >= 0")
    else .error (.overflow "cannot fit 'int' into an index-sized integer")
  | value => match value.integer? with
    | some integer =>
      if integer < 0 then .error (.valueError "__len__() should return >= 0")
      else .ok integer.toNat
    | none => .error (.notInteger (heap.typeName value))

/-- The length of a container. -/
def length (value : Value) : Program Nat := do
  let heap ← Program.heap
  match nativeLength? heap value with
  | some length => return length
  | none =>
    let answer ← Capability.invoke value "__len__" [] fun heap => .noLength (heap.typeName value)
    .ofExcept (lengthOf (← Program.heap) answer)

/-! ### Iterators -/

/-- The items that a native iterable has at this moment. -/
def nativeItems? (heap : Heap) : Value → Option (List Value)
  | .tuple items => some items
  | .list address => some (heap.items address)
  | .dict address => some ((heap.entries address).keys.map .text)
  | .text content => some (content.toList.map fun character => .text (String.singleton character))
  | .bytes content => some (content.map fun byte => .ofNat byte.toNat)
  | _ => none

/-- An iterator over an iterable. -/
def iterate (value : Value) : Program Value := do
  match value with
  | .iterator _ => return value
  | _ =>
    let heap ← Program.heap
    match nativeItems? heap value with
    | some items => .new (.newIterator items) .iterator
    | none =>
      Capability.invoke value "__iter__" [] fun heap => .notIterable (heap.typeName value)

/-- What one step of an iterator found. -/
inductive Step
  | produced (item : Value)
  /-- No more items, with the exception that said so, if one was raised. -/
  | exhausted (signal : Option Exception)

/-- One step of an iterator. -/
def advance (iterator : Value) : Program Step := do
  match iterator with
  | .iterator address =>
    match ← Program.effect (.takeItem address) with
    | some item => return .produced item
    | none => return .exhausted none
  | _ =>
    match ← Program.handling (.exactly .stopIteration)
        (Capability.invoke? iterator "__next__" [] none) with
    | .ok (some item) => return .produced item
    | .ok none =>
      let heap ← Program.heap
      .raise (.notIterator (heap.typeName iterator))
    | .error signal => return .exhausted (some signal)

/-- All items of an iterable. Tuples and lists give them without an iterator. -/
def collect (value : Value) : Program (List Value) := do
  match value with
  | .tuple items => return items
  | .list address => return (← Program.heap).items address
  | _ =>
    match ← iterate value with
    | .iterator address => Program.effect (.takeAll address)
    | iterator => Program.request (.drain iterator)

end Metaobject.Operation
