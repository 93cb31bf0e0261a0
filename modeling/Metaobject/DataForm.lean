import Metaobject.Builtin
import Metaobject.Exception
import Metaobject.Json
import Metaobject.Trace
import Metaobject.World

/-!
# Data forms

How plain data is exchanged as JSON. A case without content is written as its tag, one with content
as an object with the tag as its only key. A record is written as an object of its fields; it is
read from an object, in which unknown fields are ignored and known ones may not be repeated, or from
an array of all fields in order. Only an optional field may be left out of an object.
-/

set_option autoImplicit false
set_option relaxedAutoImplicit false

namespace Metaobject.DataForm

/-! ### Cases and records -/

/-- A value as the tag of a case and its content. -/
def case? : Json → Option (String × Option Json)
  | .string content => content.map fun tag => (tag, none)
  | .object [(some tag, content)] => some (tag, some content)
  | _ => none

/-- The tag of a case without content; a `null` as content counts as none. -/
def tag? (json : Json) : Option String :=
  match case? json with
  | some (tag, none) | some (tag, some .null) => some tag
  | _ => none

/-- A case with content. -/
def tagged (tag : String) (content : Json) : Json := .record [(tag, content)]

/-- The fields of a record in order. A field is missing if an object does not have it. -/
def fields? (names : List String) : Json → Option (List (Option Json))
  | .array items => if items.length = names.length then some (items.map some) else none
  | .object fields =>
    if fields.all (fun field => field.1.isSome) &&
        names.all (fun name => (fields.filter fun field => field.1 == some name).length ≤ 1) then
      some (names.map fun name => fields.lookup (some name))
    else none
  | _ => none

/-- A number of 64 bits without sign. -/
def word? (json : Json) : Option Nat := json.naturalBelow? 0x10000000000000000

/-- A text that may be missing or `null`. -/
def optionalText? : Option Json → Option (Option String)
  | none | some .null => some none
  | some json => json.text?.map some

/-! ### Enumerations -/

/-- The tag of a native type. -/
def typeTag : NativeType → String
  | .object => "Object"
  | .type => "Type"
  | .noneType => "NoneType"
  | .ellipsis => "Ellipsis"
  | .bool => "Bool"
  | .int => "Int"
  | .float => "Float"
  | .str => "Str"
  | .bytes => "Bytes"
  | .tuple => "Tuple"
  | .list => "List"
  | .dict => "Dict"
  | .function => "Function"
  | .builtinFunction => "BuiltinFunction"
  | .method => "Method"
  | .cell => "Cell"
  | .code => "Code"
  | .moduleType => "Module"
  | .iterator => "Iterator"

/-- The tag of a builtin function. -/
def functionTag : BuiltinFunction → String
  | .buildClass => "BuildClass"
  | .importModule => "Import"
  | .abs => "Abs"
  | .chr => "Chr"
  | .compile => "Compile"
  | .getattr => "Getattr"
  | .hasattr => "Hasattr"
  | .len => "Len"
  | .next => "Next"
  | .ord => "Ord"
  | .pow => "Pow"
  | .print => "Print"
  | .round => "Round"
  | .setattr => "Setattr"

/-- The member of an enumeration that a value stands for by its tag. -/
def member? {Member : Type} (all : List Member) (tag : Member → String) (json : Json) :
    Option Member :=
  (tag? json).bind fun sought => all.find? fun candidate => tag candidate == sought

/-- Reads a native type. -/
def type? : Json → Option NativeType := member? NativeType.all typeTag

/-- Reads a builtin function. -/
def function? : Json → Option BuiltinFunction := member? BuiltinFunction.all functionTag

/-- Reads an exception class; its tag is its name. -/
def exceptionClass? : Json → Option ExceptionClass :=
  member? ExceptionClass.all ExceptionClass.name

/-- Writes a native type. -/
def ofType (kind : NativeType) : Json := .ofText (typeTag kind)

/-- Writes a builtin function. -/
def ofFunction (builtin : BuiltinFunction) : Json := .ofText (functionTag builtin)

/-- Writes an exception class. -/
def ofExceptionClass (cls : ExceptionClass) : Json := .ofText cls.name

/-! ### Builtins -/

/-- Reads a builtin. -/
def builtin? (json : Json) : Option Builtin := do
  match ← case? json with
  | ("Function", some content) => (function? content).map .function
  | ("Type", some content) => (type? content).map .type
  | ("ExcType", some content) => (exceptionClass? content).map .exception
  | _ => none

/-- Writes a builtin. -/
def ofBuiltin : Builtin → Json
  | .function builtin => tagged "Function" (ofFunction builtin)
  | .type kind => tagged "Type" (ofType kind)
  | .exception cls => tagged "ExcType" (ofExceptionClass cls)

/-! ### Exceptions -/

/-- Reads an exception; its argument may be left out. -/
def exception? (json : Json) : Option Exception := do
  match ← fields? ["exc_type", "arg"] json with
  | [some cls, argument] => return ⟨← exceptionClass? cls, ← optionalText? argument⟩
  | _ => none

/-- Writes an exception, with its argument even if it has none. -/
def ofException (exception : Exception) : Json :=
  .record [("exc_type", ofExceptionClass exception.cls),
    ("arg", (exception.argument.map .ofText).getD .null)]

/-! ### Limits -/

/-- Reads limits. -/
def limits? (json : Json) : Option Limits := do
  match ← fields? ["max_recursion_depth", "max_int_bits"] json with
  | [some depth, some bits] => return ⟨← word? depth, ← word? bits⟩
  | _ => none

/-- Writes limits. -/
def ofLimits (limits : Limits) : Json :=
  .record [("max_recursion_depth", .ofNat limits.maxDepth),
    ("max_int_bits", .ofNat limits.maxIntegerBits)]

/-! ### Trace events -/

/-- The two fields of an event of class construction. -/
def classEvent? (event : String → String → TraceEvent) (content : Json) : Option TraceEvent := do
  match ← fields? ["class_name", "metaclass"] content with
  | [some className, some metaclass] => return event (← className.text?) (← metaclass.text?)
  | _ => none

/-- Reads a trace event. -/
def event? (json : Json) : Option TraceEvent := do
  match ← case? json with
  | ("BuiltinCall", some content) =>
    match ← fields? ["name", "argc", "depth"] content with
    | [some name, some count, some depth] =>
      return .builtinCall (← name.text?) (← word? count) (← word? depth)
    | _ => none
  | ("BuiltinReturn", some content) =>
    match ← fields? ["name", "ok", "depth"] content with
    | [some name, some succeeded, some depth] =>
      return .builtinReturn (← name.text?) (← succeeded.bool?) (← word? depth)
    | _ => none
  | ("MetaclassResolved", some content) => classEvent? .metaclassResolved content
  | ("ClassBuilt", some content) => classEvent? .classBuilt content
  | _ => none

/-- The fields of an event of class construction as an object. -/
def ofClassEvent (className metaclass : String) : Json :=
  .record [("class_name", .ofText className), ("metaclass", .ofText metaclass)]

/-- Writes a trace event. -/
def ofEvent : TraceEvent → Json
  | .builtinCall name count depth => tagged "BuiltinCall"
    (.record [("name", .ofText name), ("argc", .ofNat count), ("depth", .ofNat depth)])
  | .builtinReturn name succeeded depth => tagged "BuiltinReturn"
    (.record [("name", .ofText name), ("ok", .bool succeeded), ("depth", .ofNat depth)])
  | .metaclassResolved className metaclass =>
    tagged "MetaclassResolved" (ofClassEvent className metaclass)
  | .classBuilt className metaclass => tagged "ClassBuilt" (ofClassEvent className metaclass)

end Metaobject.DataForm
