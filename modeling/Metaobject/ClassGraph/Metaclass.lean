import Metaobject.ClassGraph.Basic
import Metaobject.Exception.Wording

/-!
# The most derived metaclass

The metaclass of a new class is a subtype of the metaclass asked for and of the types of all bases.
It is sought among exactly these candidates (`Heap.metaclassCandidates`); when none of them is a
subtype of all the others the metaclasses conflict (`Heap.mostDerivedMetaclass`).
-/

set_option autoImplicit false
set_option relaxedAutoImplicit false

namespace Metaobject.Heap

/-- A starting class and the types of the bases, in order and without repetition. -/
def metaclassCandidates (heap : Heap) (start : ClassRef) (bases : List Value) : List ClassRef :=
  bases.foldl (fun candidates base =>
    if candidates.contains (heap.typeOf base) then candidates
    else candidates ++ [heap.typeOf base]) [start]

/-- The first candidate that is a subtype of all candidates. -/
def mostDerivedMetaclass (heap : Heap) (start : ClassRef) (bases : List Value) :
    Except Exception ClassRef :=
  let candidates := heap.metaclassCandidates start bases
  match candidates.find? fun winner => candidates.all (heap.isSubtype winner) with
  | some winner => .ok winner
  | none => .error .metaclassConflict

end Metaobject.Heap
