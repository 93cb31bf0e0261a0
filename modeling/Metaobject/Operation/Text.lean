import Metaobject.Capability
import Metaobject.Value.Written

/-!
# Conversion to text

The text of a value as programs see it. An instance of a user class is asked by the capability
`__str__`, or else by `__repr__`; the answer must be a string. Without either, and for every other
value, the text is the native one.
-/

set_option autoImplicit false
set_option relaxedAutoImplicit false

namespace Metaobject.Operation

/-- The answer of a method that must give a string. -/
def textAnswer (method : String) (answer : Value) : Program String := do
  match answer with
  | .text content => return content
  | _ =>
    let heap ← Program.heap
    .raise (.notText method (heap.typeName answer))

/-- The text of a value. -/
def textOf (value : Value) : Program String := do
  match value with
  | .object _ =>
    match ← Capability.invoke? value "__str__" [] none with
    | some answer => textAnswer "__str__" answer
    | none =>
      match ← Capability.invoke? value "__repr__" [] none with
      | some answer => textAnswer "__repr__" answer
      | none => return (← Program.heap).text value
  | _ => return (← Program.heap).text value

end Metaobject.Operation
