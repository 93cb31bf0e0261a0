import Metaobject.Builtin.Basic
import Metaobject.Builtin.BuildClass
import Metaobject.Builtin.Collaboration
import Metaobject.Builtin.Constructor
import Metaobject.Builtin.Print
import Metaobject.Script.Execution

/-!
# Calls

The program that a call of a value is (`Call.dispatch`). Builtins have a program each. A user
function runs its code in a scope of its own; a bound method calls its function with the receiver
first; an instance is called by the capability `__call__`. Calling a class creates an object, by
`__new__` if the class has it, and then initializes it by `__init__` unless the object is of another
class (`Call.construct`).
-/

set_option autoImplicit false
set_option relaxedAutoImplicit false

namespace Metaobject

/-- The program of a builtin function. -/
def BuiltinFunction.run : BuiltinFunction → Arguments → Program Value
  | .buildClass => BuildClass.run
  | .importModule => Import.run
  | .abs => runAbs
  | .chr => runChr
  | .compile => Compile.run
  | .getattr => runGetattr
  | .hasattr => runHasattr
  | .len => runLen
  | .next => runNext
  | .ord => runOrd
  | .pow => runPow
  | .print => Print.run
  | .round => runRound
  | .setattr => runSetattr

/-- The program of a builtin. -/
def Builtin.run : Builtin → Arguments → Program Value
  | .function builtin => builtin.run
  | .type kind => Constructor.runNative kind
  | .exception cls => Constructor.runException cls

namespace Call

/-- Calls a user function; without a result of its code it gives `null`. -/
def runFunction (function : FunctionRecord) (arguments : Arguments) : Program Value := do
  let locals ← Function.localsFor function arguments
  let result ← Script.runCode ⟨function.globals, locals, function.closure⟩ function.code
  return result.getD .null

/-- The object that a call of a class creates: what `__new__` gives, or else a class if the called
class is a metaclass, or else an instance. -/
def create (cls : Address) (arguments : Arguments) : Program Value := do
  let heap ← Program.heap
  match heap.lookupUser "__new__" cls with
  | some method => Program.call method (arguments.cons (.userClass cls))
  | none =>
    if heap.isMetaclass cls then ClassCreation.create (.user cls) arguments
    else .new (.newInstance cls) .object

/-- Initializes a created object. Without `__init__` and `__new__` a class that is no metaclass
takes no arguments. -/
def runInitializer (cls : Address) (created : Value) (arguments : Arguments) : Program Unit := do
  let heap ← Program.heap
  match heap.lookupUser "__init__" cls with
  | some method =>
    let result ← Program.call method (arguments.cons created)
    if result.isNull then return ()
    let heap ← Program.heap
    .raise (.initializerResult (heap.typeName result))
  | none =>
    if !heap.isMetaclass cls && (heap.lookupUser "__new__" cls).isNone &&
        (arguments.count != 0 || arguments.keywords.isSome) then
      .raise (.noArguments (heap.className (.user cls)))
    else return ()

/-- Calls a user class. An object of another class is given as it is. -/
def construct (cls : Address) (arguments : Arguments) : Program Value := do
  let created ← create cls arguments
  let heap ← Program.heap
  if heap.isSubtype (heap.typeOf created) (.user cls) then runInitializer cls created arguments
  return created

/-- The exception for a value that cannot be called. -/
def uncallable (heap : Heap) (value : Value) : Exception := .notCallable (heap.typeName value)

/-- Calls a value. -/
def dispatch (callable : Value) (arguments : Arguments) : Program Value := do
  let heap ← Program.heap
  match callable with
  | .builtin builtin => builtin.run arguments
  | .function address => match heap.function? address with
    | some function => runFunction function arguments
    | none => .raise (uncallable heap callable)
  | .method address => match heap.method? address with
    | some (receiver, function) => Program.call function (arguments.cons receiver)
    | none => .raise (uncallable heap callable)
  | .userClass address => construct address arguments
  | .object _ => match heap.lookup "__call__" (heap.typeOf callable) with
    | some method => Program.call method (arguments.cons callable)
    | none => .raise (uncallable heap callable)
  | _ => .raise (uncallable heap callable)

end Call

end Metaobject
