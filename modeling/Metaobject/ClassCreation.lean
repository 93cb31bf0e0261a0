import Metaobject.ClassGraph.Metaclass
import Metaobject.Program

/-!
# Creating classes

The class constructor: a name, a tuple of bases and a dict of attributes make a class. Its metaclass
is the most derived one of the metaclass asked for and the types of the bases, its linearization is
computed from the bases, and its namespace is a copy of the dict (`ClassCreation.create`).
-/

set_option autoImplicit false
set_option relaxedAutoImplicit false

namespace Metaobject.ClassCreation

/-- The classes that a tuple of bases holds. -/
def baseClasses (bases : List Value) : Except Exception (List ClassRef) :=
  bases.mapM fun base => match base.class? with
    | some cls => .ok cls
    | none => .error .basesNotTypes

/-- The class that a name, bases and attributes define. -/
def definition (heap : Heap) (metaclass : ClassRef) (name bases attributes : Value) :
    Except Exception ClassDefinition := do
  match name, bases, attributes with
  | .text name, .tuple bases, .dict attributes =>
    let classes ← baseClasses bases
    let winner ← heap.mostDerivedMetaclass metaclass bases
    .ok ⟨name, winner, classes, heap.entries attributes⟩
  | .text _, .tuple _, other => .error (.typeArgument 3 "dict" (heap.typeName other))
  | .text _, other, _ => .error (.typeArgument 2 "tuple" (heap.typeName other))
  | other, _, _ => .error (.typeArgument 1 "str" (heap.typeName other))

/-- Creates a class with `metaclass` as the metaclass asked for. -/
def create (metaclass : ClassRef) (arguments : Arguments) : Program Value := do
  if arguments.keywords.isSome then Program.raise .typeKeywords
  let (name, bases, attributes) ← .ofFailure (arguments.three NativeType.type.name)
  let heap ← Program.heap
  let definition ← .ofExcept (definition heap metaclass name bases attributes)
  .new (.newClass definition) .userClass

end Metaobject.ClassCreation
