import Metaobject.Value

/-!
# The builtin registry

The names that are known without being defined: the constants, the builtin functions, the types that
serve as constructors, the exception classes, and two older names of `OSError`. The order is that of
the namespace as programs see it.
-/

set_option autoImplicit false
set_option relaxedAutoImplicit false

namespace Metaobject.Registry

/-- The native types that have a name in the registry. -/
def constructors : List NativeType :=
  [.bool, .bytes, .dict, .float, .int, .list, .object, .str, .tuple, .type]

/-- The names of the registry with their values, in order. -/
def entries : List (String × Value) :=
  [("None", .null), ("Ellipsis", .ellipsis), ("False", .bool false), ("True", .bool true)] ++
    BuiltinFunction.all.map (fun builtin => (builtin.name, .builtin (.function builtin))) ++
    constructors.map (fun kind => (kind.name, .builtin (.type kind))) ++
    ExceptionClass.all.map (fun cls => (cls.name, .builtin (.exception cls))) ++
    [("EnvironmentError", .builtin (.exception .osError)),
     ("IOError", .builtin (.exception .osError))]

/-- The value of a name. -/
def find? (name : String) : Option Value := entries.lookup name

end Metaobject.Registry
