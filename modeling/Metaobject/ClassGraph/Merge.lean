/-!
# Merging orders

The merge of several lists into one order that keeps the order of each. At every step the first head
that stands in no list behind its head is taken (`goodHead?`) and dropped from the lists that it
heads. The merge fails when no head is good, and when the result would be longer than the room given
(`merge`).
-/

set_option autoImplicit false
set_option relaxedAutoImplicit false

namespace Metaobject.ClassGraph

/-- Why lists have no merge. -/
inductive MergeFailure
  /-- Every remaining head stands behind another one. -/
  | inconsistent
  /-- The merge is longer than allowed. -/
  | tooLong
  deriving DecidableEq

variable {Item : Type} [DecidableEq Item]

/-- The lists that still have items. -/
def pending (lists : List (List Item)) : List (List Item) := lists.filter fun list => !list.isEmpty

/-- Whether an item stands in no list behind its head. -/
def isGoodHead (lists : List (List Item)) (item : Item) : Bool :=
  lists.all fun list => !list.tail.contains item

/-- The first head that stands in no list behind its head. -/
def goodHead? (lists : List (List Item)) : Option Item :=
  (lists.filterMap List.head?).find? (isGoodHead lists)

/-- A list without the given item at its head. -/
def dropHead (item : Item) (list : List Item) : List Item :=
  if list.head? = some item then list.tail else list

/-- The merge of lists, of at most `room` items. -/
def merge : Nat → List (List Item) → Except MergeFailure (List Item)
  | 0, lists =>
    if (pending lists).isEmpty then .ok []
    else match goodHead? (pending lists) with
      | none => .error .inconsistent
      | some _ => .error .tooLong
  | room + 1, lists =>
    if (pending lists).isEmpty then .ok []
    else match goodHead? (pending lists) with
      | none => .error .inconsistent
      | some item => (merge room ((pending lists).map (dropHead item))).map (item :: ·)

end Metaobject.ClassGraph
