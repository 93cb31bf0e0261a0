import Metaobject.ClassGraph.Lookup
import Metaobject.Program

/-!
# Capabilities

A user class gives its instances a capability by a method of a fixed name, found by the raw search
on the class and called with the receiver as its first argument. The search looks at the class of
the receiver only, never at the receiver itself.
-/

set_option autoImplicit false
set_option relaxedAutoImplicit false

namespace Metaobject.Capability

/-- Calls the method that the class of the receiver has for a capability; `none` without one. -/
def invoke? (receiver : Value) (name : String) (arguments : List Value)
    (keywords : Option Address) : Program (Option Value) := do
  let heap ← Program.heap
  match heap.lookup name (heap.typeOf receiver) with
  | none => return none
  | some method =>
    return some (← Program.call method (.of heap (receiver :: arguments) keywords))

/-- Calls the method for a capability, and raises `missing` without one. -/
def invoke (receiver : Value) (name : String) (arguments : List Value)
    (missing : Heap → Exception) : Program Value := do
  match ← invoke? receiver name arguments none with
  | some result => return result
  | none => .raise (missing (← Program.heap))

end Metaobject.Capability
