import Metaobject.ClassGraph.Basic
import Metaobject.ClassGraph.Merge
import Metaobject.Exception.Wording

/-!
# Linearizing bases

The linearization of a new class from its bases: the merge of the linearizations of the bases and of
the list of bases itself. A class without bases has the single ancestor `object`. Bases that cannot
be derived from, repeated bases, bases that no order fits and linearizations of more than
`maxLinearization` classes are type errors (`Heap.linearize`).
-/

set_option autoImplicit false
set_option relaxedAutoImplicit false

namespace Metaobject

/-- The greatest length of a computed linearization. -/
def maxLinearization : Nat := 1000

namespace Heap

/-- Whether a class may be a base at all. -/
def isAcceptableBase : ClassRef → Bool
  | .native kind => kind.isAcceptableBase
  | _ => true

/-- The fault of the first base that cannot be a base or that is among the ones `seen` before it. -/
def baseFault? (heap : Heap) (seen : List ClassRef) : List ClassRef → Option Exception
  | [] => none
  | base :: rest =>
    if !isAcceptableBase base then some (.unacceptableBase (heap.className base))
    else if seen.contains base then some (.duplicateBase (heap.className base))
    else heap.baseFault? (seen ++ [base]) rest

/-- The lists that the linearization of a new class must agree with. -/
def basisLists (heap : Heap) (bases : List ClassRef) : List (List ClassRef) :=
  bases.map heap.linearization ++ [bases]

/-- The exception for bases without a merge. -/
def mergeFault (heap : Heap) (bases : List ClassRef) : ClassGraph.MergeFailure → Exception
  | .inconsistent => .noLinearization (bases.map heap.className)
  | .tooLong => .linearizationTooLong

/-- The linearization of a new class with the given bases, without the class itself. -/
def linearize (heap : Heap) (bases : List ClassRef) : Except Exception (List ClassRef) :=
  if bases.isEmpty then .ok [.native .object]
  else match heap.baseFault? [] bases with
    | some fault => .error fault
    | none => (ClassGraph.merge maxLinearization (heap.basisLists bases)).mapError
        (heap.mergeFault bases)

end Heap

end Metaobject
