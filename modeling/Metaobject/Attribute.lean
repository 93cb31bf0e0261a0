import Metaobject.Capability

/-!
# Attributes

Reading and storing attributes. An instance has its own attributes before those of its class, and
after both the capability `__getattr__`; a class has the attributes of its linearization before
those of its metaclass. A user function found on the class of its receiver is bound to the receiver.
Attributes can be stored on instances, classes and modules.
-/

set_option autoImplicit false
set_option relaxedAutoImplicit false

namespace Metaobject.Attribute

/-- A value found on the class of a receiver: a user function becomes a bound method. -/
def bindTo (receiver : Value) : Value → Program Value
  | .function address => .new (.newMethod receiver (.function address)) .method
  | value => .done value

/-! ### Reading -/

/-- The classes of a linearization as a tuple. -/
def classTuple (classes : List ClassRef) : Value := .tuple (classes.map ClassRef.toValue)

/-- An attribute of an instance with attribute dict `attributes`. -/
def ofInstance (receiver : Value) (cls attributes : Address) (name : String) : Program Value := do
  let heap ← Program.heap
  if name = "__dict__" then return .dict attributes
  match (heap.entries attributes).find? name with
  | some value => return value
  | none => match heap.lookupUser name cls with
    | some value => bindTo receiver value
    | none => Capability.invoke receiver "__getattr__" [.text name] fun heap =>
        .missingAttribute (heap.className (.user cls)) name

/-- The attributes that every user class has by its construction. -/
def intrinsic? (heap : Heap) (cls : Address) (record : ClassRecord) : String → Option Value
  | "__name__" => some (.text record.name)
  | "__dict__" => some (.dict record.namespaceDict)
  | "__bases__" =>
    some (classTuple (if record.bases.isEmpty then [.native .object] else record.bases))
  | "__mro__" => some (classTuple (heap.linearization (.user cls)))
  | _ => none

/-- An attribute of a user class. -/
def ofUserClass (cls : Address) (record : ClassRecord) (name : String) : Program Value := do
  let heap ← Program.heap
  match intrinsic? heap cls record name with
  | some value => return value
  | none => match heap.lookupUser name cls with
    | some value => return value
    | none => match heap.lookup name record.metaclass with
      | some value => bindTo (.userClass cls) value
      | none => .raise (.missingTypeAttribute record.name name)

/-- An attribute of a native type or an exception class. -/
def ofNativeClass (heap : Heap) (cls : ClassRef) (name : String) : Program Value :=
  if name = "__name__" then .done (.text (heap.className cls))
  else if name = "__mro__" then .done (classTuple (heap.linearization cls))
  else .raise (.missingTypeAttribute (heap.className cls) name)

/-- An attribute of a user function. -/
def ofFunction (record : FunctionRecord) (name : String) : Program Value :=
  if name = "__name__" then .done (.text record.name)
  else if name = "__globals__" then .done (.dict record.globals)
  else if name = "__code__" then .done (.code record.code)
  else .raise (.missingAttribute NativeType.function.name name)

/-- An attribute of a module. -/
def ofModule (heap : Heap) (moduleName : String) (namespaceDict : Address) (name : String) :
    Program Value :=
  if name = "__dict__" then .done (.dict namespaceDict)
  else match (heap.entries namespaceDict).find? name with
    | some value => .done value
    | none => .raise (.missingModuleAttribute moduleName name)

/-- The attribute of a value that is missing. -/
def missing (heap : Heap) (value : Value) (name : String) : Exception :=
  .missingAttribute (heap.typeName value) name

/-- An attribute of a value by its kind. -/
def ofKind (heap : Heap) (value : Value) (name : String) : Program Value :=
  match value with
  | .object address => match heap.instance? address with
    | some (cls, attributes) => ofInstance value cls attributes name
    | none => .raise (missing heap value name)
  | .userClass address => match heap.userClass? address with
    | some record => ofUserClass address record name
    | none => .raise (missing heap value name)
  | .builtin (.function builtin) =>
    if name = "__name__" then .done (.text builtin.name) else .raise (missing heap value name)
  | .builtin (.type _) | .builtin (.exception _) => match value.class? with
    | some cls => ofNativeClass heap cls name
    | none => .fault "builtin type without a TypeRef"
  | .function address => match heap.function? address with
    | some record => ofFunction record name
    | none => .raise (missing heap value name)
  | .moduleObject address => match heap.module? address with
    | some (moduleName, namespaceDict) => ofModule heap moduleName namespaceDict name
    | none => .raise (missing heap value name)
  | .exception address => match heap.exception? address with
    | some exception =>
      if name = "args" then .done (.tuple (exception.argument.toList.map .text))
      else .raise (missing heap value name)
    | none => .raise (missing heap value name)
  | _ => .raise (missing heap value name)

/-- An attribute of a value. -/
def get (value : Value) (name : String) : Program Value := do
  let heap ← Program.heap
  if name = "__class__" then return (heap.typeOf value).toValue
  ofKind heap value name

/-! ### Storing -/

/-- Stores an attribute. The types of native values cannot be changed, and other native values have
no place for attributes. -/
def set (value : Value) (name : String) (content : Value) : Program Unit := do
  match value with
  | .object address | .userClass address | .moduleObject address =>
    Program.effect (.storeAttribute address name content)
  | .builtin (.type kind) => .raise (.immutableType kind.name name)
  | .builtin (.exception cls) => .raise (.immutableType cls.name name)
  | _ =>
    let heap ← Program.heap
    .raise (missing heap value name)

end Metaobject.Attribute
