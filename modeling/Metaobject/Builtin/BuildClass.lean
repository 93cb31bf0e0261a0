import Metaobject.Arguments.Parameters
import Metaobject.Capability
import Metaobject.ClassGraph.Metaclass

/-!
# Building classes from bodies

The builtin behind a class statement. It resolves the metaclass, from the keyword `metaclass` or
from the bases; prepares a namespace, by `__prepare__` if the metaclass has it; runs the body with
the namespace; calls the metaclass with name, bases, namespace and the remaining keywords; and puts
the result into the cell that the body gave, if it gave one. Each stage starts only when the one
before it has succeeded. A body without result builds no class. The keyword dict of the caller is
never changed.
-/

set_option autoImplicit false
set_option relaxedAutoImplicit false

namespace Metaobject.BuildClass

/-- What `__build_class__` is given: the body, the name and the bases. -/
structure Definition where
  body : FunctionRecord
  name : String
  bases : List Value

/-- Reads the positional arguments. -/
def definition (heap : Heap) : List Value → Except Exception Definition
  | body :: name :: bases => match body, name with
    | .function address, .text name => match heap.function? address with
      | some body => .ok ⟨body, name, bases⟩
      | none => .error (.typeError "__build_class__: func must be a function")
    | .function _, _ => .error (.typeError "__build_class__: name is not a string")
    | _, _ => .error (.typeError "__build_class__: func must be a function")
  | _ => .error (.typeError "__build_class__: not enough arguments")

/-- Separates the metaclass from the other keywords. A dict without that key stays as it is; of one
with it the rest is copied, if there is any. -/
def splitMetaclass (keywords : Option Address) : Program (Option Value × Option Address) := do
  match keywords with
  | none => return (none, none)
  | some address =>
    let entries := (← Program.heap).entries address
    match entries.find? "metaclass" with
    | none => return (none, some address)
    | some metaclass =>
      let rest := entries.erase "metaclass"
      if rest.isEmpty then return (some metaclass, none)
      return (some metaclass, some (← Program.effect (.newDict rest)))

/-- The metaclass to call: the most derived one when the metaclass asked for is a class or when none
is asked for, and otherwise the value asked for as it is. -/
def resolve (heap : Heap) (explicit : Option Value) (bases : List Value) :
    Except Exception Value :=
  let mostDerived (start : ClassRef) := (heap.mostDerivedMetaclass start bases).map ClassRef.toValue
  match explicit with
  | some metaclass => match metaclass.class? with
    | some start => mostDerived start
    | none => .ok metaclass
  | none => mostDerived ((bases.head?.map heap.typeOf).getD (.native .type))

/-- The name by which reports and messages call a metaclass. -/
def metaclassName (heap : Heap) (metaclass : Value) : String :=
  match metaclass.class? with
  | some cls => heap.className cls
  | none => heap.typeName metaclass

/-- What `__prepare__` gives, if the metaclass has it: on a class it is found by the raw search on
the class itself, and on another value as a capability. -/
def prepared? (metaclass : Value) (arguments : List Value) (keywords : Option Address) :
    Program (Option Value) := do
  match metaclass.class? with
  | some cls =>
    let heap ← Program.heap
    match heap.lookup "__prepare__" cls with
    | some method => return some (← Program.call method (.of heap arguments keywords))
    | none => return none
  | none => Capability.invoke? metaclass "__prepare__" arguments keywords

/-- The namespace dict for the body. -/
def prepareNamespace (metaclass : Value) (metaclassName : String) (arguments : List Value)
    (keywords : Option Address) : Program Address := do
  match ← prepared? metaclass arguments keywords with
  | none => Program.effect (.newDict .empty)
  | some (.dict namespaceDict) => return namespaceDict
  | some other =>
    let heap ← Program.heap
    .raise (.notNamespace metaclassName (heap.typeName other))

/-- Runs the body with its namespace, one level deeper. -/
def runBody (body : FunctionRecord) (namespaceDict : Address) : Program (Option Value) := do
  let locals ← Function.localsFor body (.ofList [.dict namespaceDict])
  Program.request (.runCode ⟨body.globals, locals, body.closure⟩ body.code)

/-- Puts the class into the cell that the body gave. -/
def fillClassCell (bodyResult cls : Value) : Program Unit :=
  match bodyResult with
  | .cell address => Program.effect (.fillCell address cls)
  | _ => .done ()

/-- Builds a class. -/
def run (arguments : Arguments) : Program Value := do
  let heap ← Program.heap
  let ⟨body, name, bases⟩ ← .ofExcept (definition heap arguments.positional)
  let (explicit, keywords) ← splitMetaclass arguments.keywords
  let heap ← Program.heap
  let metaclass ← .ofExcept (resolve heap explicit bases)
  let metaclassName := metaclassName heap metaclass
  Program.effect (.reportMetaclass name metaclassName)
  let header := [.text name, .tuple bases]
  let namespaceDict ← prepareNamespace metaclass metaclassName header keywords
  match ← runBody body namespaceDict with
  | none => return .null
  | some bodyResult =>
    let heap ← Program.heap
    let cls ← Program.call metaclass (.of heap (header ++ [.dict namespaceDict]) keywords)
    fillClassCell bodyResult cls
    Program.effect (.reportClass name metaclassName)
    return cls

end Metaobject.BuildClass
