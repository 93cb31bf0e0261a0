import Metaobject.ClassGraph.Basic

/-!
# Looking up attributes on classes

The raw search for a name on a class (`Heap.lookup`): the namespace of the class itself, and then
each class of its linearization in turn, each searched in the same way. Native types and exception
classes have no namespace. The classes of a linearization are older than the class, which bounds the
search.
-/

set_option autoImplicit false
set_option relaxedAutoImplicit false

namespace Metaobject.Heap

/-- The entry for a name in the namespace of a class itself. -/
def ownAttribute? (heap : Heap) (address : Address) (name : String) : Option Value :=
  match heap.userClass? address with
  | some record => (heap.entries record.namespaceDict).find? name
  | none => none

/-- The raw search for a name on a class built at run time. -/
def lookupUser (heap : Heap) (name : String) (address : Address) : Option Value :=
  (heap.ownAttribute? address name).orElse fun _ =>
    (heap.storedLinearization address).findSome? fun
      | .user older => if older < address then heap.lookupUser name older else none
      | _ => none
termination_by address

/-- The raw search for a name on a class. -/
def lookup (heap : Heap) (name : String) : ClassRef → Option Value
  | .user address => heap.lookupUser name address
  | _ => none

end Metaobject.Heap
