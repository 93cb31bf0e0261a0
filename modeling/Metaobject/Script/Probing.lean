import Metaobject.Arguments.Parameters
import Metaobject.Attribute
import Metaobject.ClassGraph.Metaclass
import Metaobject.Operation.Iteration
import Metaobject.Operation.Number
import Metaobject.Operation.Text
import Metaobject.Value.Equality

/-!
# Carrying out probes

What each direct operation of a script does with its arguments. An optional answer is a tuple of at
most one item, and an operation without answer gives `null`. A probe that does not fit its arguments
is an internal error.
-/

set_option autoImplicit false
set_option relaxedAutoImplicit false

namespace Metaobject.Script

/-- The end of a probe that does not fit its arguments. -/
def unfit {Result : Type} : Program Result := .fault "a probe does not fit its arguments"

/-- What an object of the asked kind gives; a value of another kind is unfit. -/
def fitting {Result : Type} (found : Option Result) (use : Result → Value) : Program Value :=
  match found with
  | some result => .done (use result)
  | none => unfit

/-! ### Values -/

/-- Carries out a probe on values. -/
def ValueProbe.run (probe : ValueProbe) (arguments : List Value) : Program Value := do
  let heap ← Program.heap
  match probe, arguments with
  | .written, [value] => return .text (heap.written value)
  | .text, [value] => return .text (heap.text value)
  | .isTrue, [value] => return .bool (heap.isTrue value)
  | .word, [value] => return .ofOption (value.word?.map .ofInt)
  | .content, [value] => return .ofOption (value.text?.map .text)
  | .cls, [value] => return .ofOption (value.class?.map ClassRef.toValue)
  | .typeOf, [value] => return (heap.typeOf value).toValue
  | .equal, [left, right] => return .bool (heap.equal left right)
  | .same, [left, right] => return .bool (heap.same left right)
  | _, _ => unfit

/-! ### The runtime -/

/-- One step of an iterator as a value: what it found, and with what. -/
def stepValue (iterator : Value) : Program Value := do
  match ← Program.handling (.within .baseException) (Operation.advance iterator) with
  | .ok (.produced item) => return .tuple [.text "produced", item]
  | .ok (.exhausted none) => return .tuple [.text "exhausted"]
  | .ok (.exhausted (some signal)) =>
    return .tuple [.text "exhausted", ← .new (.newException signal) .exception]
  | .error failure => return .tuple [.text "failed", ← .new (.newException failure) .exception]

/-- The addresses of cells. -/
def cellAddresses (values : List Value) : Option (List Address) :=
  values.mapM fun value => match value with
    | .cell address => some address
    | _ => none

/-- Carries out a probe of the runtime. -/
def RuntimeProbe.run (probe : RuntimeProbe) (arguments : List Value) : Program Value := do
  match probe, arguments with
  | .length, [value] => return .ofNat (← Operation.length value)
  | .absolute, [value] => Operation.absolute value
  | .power, [base, exponent] => Operation.power base exponent none
  | .power, [base, exponent, modulus] => Operation.power base exponent (some modulus)
  | .round, [number, digits] => Operation.round number digits
  | .iterate, [value] => Operation.iterate value
  | .collect, [value] => .new (.newList (← Operation.collect value)) .list
  | .text, [value] => return .text (← Operation.textOf value)
  | .getAttribute, [value, .text name] => Attribute.get value name
  | .setAttribute, [value, .text name, content] => do
    Attribute.set value name content
    return .null
  | .depth, [] => return .ofNat (← Program.effect .depth)
  | .next, [iterator] => stepValue iterator
  | .runCode, [.dict globals, .dict locals, .code code, .tuple closure] =>
    match cellAddresses closure with
    | some closure =>
      return .ofOption (← Program.request (.runCode ⟨globals, locals, closure⟩ code))
    | none => unfit
  | _, _ => unfit

/-! ### Classes -/

/-- Carries out a probe on a class, or on an instance for the last two. -/
def ClassProbe.run (probe : ClassProbe) (arguments : List Value) : Program Value := do
  let heap ← Program.heap
  match probe, arguments with
  | .name, [cls] => fitting cls.class? fun cls => .text (heap.className cls)
  | .linearization, [cls] =>
    fitting cls.class? fun cls => Attribute.classTuple (heap.linearization cls)
  | .isSubtype, [cls, other] =>
    fitting (do return (← cls.class?, ← other.class?)) fun (cls, other) =>
      .bool (heap.isSubtype cls other)
  | .isMetatype, [cls] => fitting cls.class? fun cls => .bool (heap.isMetatype cls)
  | .metaclass, [cls] => fitting cls.class? fun cls => (heap.metaclassOf cls).toValue
  | .lookup, [cls, .text sought] =>
    fitting cls.class? fun cls => .ofOption (heap.lookup sought cls)
  | .mostDerivedMetaclass, [start, .tuple values] => match start.class? with
    | some start => .ofExcept ((heap.mostDerivedMetaclass start values).map ClassRef.toValue)
    | none => unfit
  | .bases, [.userClass address] =>
    fitting (heap.userClass? address) fun record => Attribute.classTuple record.bases
  | .namespaceDict, [.userClass address] =>
    fitting (heap.userClass? address) fun record => .dict record.namespaceDict
  | .isMetaclass, [.userClass address] => return .bool (heap.isMetaclass address)
  | .instanceClass, [.object address] =>
    fitting (heap.instance? address) fun (cls, _) => .userClass cls
  | .instanceDict, [.object address] =>
    fitting (heap.instance? address) fun (_, attributes) => .dict attributes
  | _, _ => unfit

/-! ### Dicts -/

/-- Carries out a probe on a dict. -/
def DictProbe.run (probe : DictProbe) (arguments : List Value) : Program Value := do
  let heap ← Program.heap
  match probe, arguments with
  | .get, [.dict address, .text key] => return .ofOption ((heap.entries address).find? key)
  | .set, [.dict address, .text key, content] => do
    Program.effect (.insertEntry address key content)
    return .null
  | .remove, [.dict address, .text key] => do
    Program.effect (.eraseEntry address key)
    return .ofOption ((heap.entries address).find? key)
  | .contains, [.dict address, .text key] => return .bool ((heap.entries address).contains key)
  | .size, [.dict address] => return .ofNat (heap.entries address).size
  | .isEmpty, [.dict address] => return .bool (heap.entries address).isEmpty
  | .keys, [.dict address] => return .tuple ((heap.entries address).keys.map .text)
  | .items, [.dict address] =>
    return .tuple ((heap.entries address).toList.map fun (key, content) =>
      .tuple [.text key, content])
  | .copy, [.dict address] => .new (.newDict (heap.entries address)) .dict
  | _, _ => unfit

/-! ### Other objects -/

/-- The class that a probe names, by a class or by its name. -/
def exceptionClass? : Value → Option ExceptionClass
  | .text name => ExceptionClass.ofName? name
  | .builtin (.exception cls) => some cls
  | _ => none

/-- A new exception of a named class. -/
def exceptionOf (cls : Value) (argument : Option String) : Program Value :=
  match exceptionClass? cls with
  | some cls => .new (.newException ⟨cls, argument⟩) .exception
  | none => unfit

/-- The local scope of a call of a function, as for the call itself. -/
def localScope (heap : Heap) (function : Address) (arguments : Arguments) : Program Value :=
  match heap.function? function with
  | some record => do return .dict (← Function.localsFor record arguments)
  | none => unfit

/-- Carries out a probe on a cell, a function, a method, code, a module, an exception, an iterator
or a list. -/
def ObjectProbe.run (probe : ObjectProbe) (arguments : List Value) : Program Value := do
  let heap ← Program.heap
  match probe, arguments with
  | .newCell, [] => .new (.newCell none) .cell
  | .newCell, [content] => .new (.newCell (some content)) .cell
  | .cellContent, [.cell address] => return .ofOption (heap.cellContent? address)
  | .setCell, [.cell address, content] => do
    Program.effect (.setCell address content)
    return .null
  | .fillCell, [.cell address, content] => do
    Program.effect (.fillCell address content)
    return .null
  | .cellIsEmpty, [.cell address] => return .bool (heap.cellContent? address).isNone
  | .functionName, [.function address] =>
    fitting (heap.function? address) fun record => .text record.name
  | .functionGlobals, [.function address] =>
    fitting (heap.function? address) fun record => .dict record.globals
  | .functionCode, [.function address] =>
    fitting (heap.function? address) fun record => .code record.code
  | .functionClosure, [.function address] =>
    fitting (heap.function? address) fun record => .tuple (record.closure.map .cell)
  | .functionLocals, [.function address, .tuple positional] =>
    localScope heap address (.ofList positional)
  | .functionLocals, [.function address, .tuple positional, .dict keywords] =>
    localScope heap address ⟨positional, some keywords⟩
  | .newMethod, [receiver, function] => .new (.newMethod receiver function) .method
  | .methodReceiver, [.method address] => fitting (heap.method? address) Prod.fst
  | .methodFunction, [.method address] => fitting (heap.method? address) Prod.snd
  | .codeName, [.code address] =>
    fitting (heap.code? address) fun record => .text record.name
  | .codeFile, [.code address] =>
    fitting (heap.code? address) fun record => .text record.filename
  | .codeParameters, [.code address] =>
    fitting (heap.code? address) fun record => .tuple (record.parameters.map .text)
  | .codeIsClassBody, [.code address] =>
    fitting (heap.code? address) fun record => .bool record.isClassBody
  | .moduleName, [.moduleObject address] =>
    fitting (heap.module? address) fun (name, _) => .text name
  | .moduleDict, [.moduleObject address] =>
    fitting (heap.module? address) fun (_, namespaceDict) => .dict namespaceDict
  | .newException, [cls] => exceptionOf cls none
  | .newException, [cls, .text argument] => exceptionOf cls (some argument)
  | .exceptionMessage, [.exception address] =>
    fitting (heap.exception? address) fun exception => .text exception.message
  | .exceptionWritten, [.exception address] =>
    fitting (heap.exception? address) fun exception => .text exception.written
  | .exceptionReport, [.exception address] =>
    fitting (heap.exception? address) fun exception => .text exception.report
  | .exceptionArgument, [.exception address] =>
    fitting (heap.exception? address) fun exception =>
      .ofOption (exception.argument.map .text)
  | .newIterator, [.tuple items] => .new (.newIterator items) .iterator
  | .append, [.list address, item] => do
    Program.effect (.appendItem address item)
    return .null
  | _, _ => unfit

/-- Carries out a probe. -/
def Probe.run : Probe → List Value → Program Value
  | .value probe, arguments => probe.run arguments
  | .runtime probe, arguments => probe.run arguments
  | .cls probe, arguments => probe.run arguments
  | .dict probe, arguments => probe.run arguments
  | .object probe, arguments => probe.run arguments

end Metaobject.Script
