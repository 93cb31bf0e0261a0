import Metaobject.ExceptionClass

/-!
# Builtin types, functions and modes

The names that the runtime itself provides: the types of native values with their ancestors
(`NativeType`), the builtin functions (`BuiltinFunction`), and the three kinds of source that can be
compiled (`CompileMode`). A builtin is one of the types, functions or exception classes.
-/

set_option autoImplicit false
set_option relaxedAutoImplicit false

namespace Metaobject

/-! ### Native types -/

/-- The types of native values. -/
inductive NativeType
  | object
  | type
  | noneType
  | ellipsis
  | bool
  | int
  | float
  | str
  | bytes
  | tuple
  | list
  | dict
  | function
  | builtinFunction
  | method
  | cell
  | code
  | moduleType
  | iterator
  deriving DecidableEq

namespace NativeType

/-- Every native type, in the order of declaration. -/
def all : List NativeType :=
  [.object, .type, .noneType, .ellipsis, .bool, .int, .float, .str, .bytes, .tuple, .list, .dict,
   .function, .builtinFunction, .method, .cell, .code, .moduleType, .iterator]

/-- The name of a type as programs see it. -/
def name : NativeType → String
  | .object => "object"
  | .type => "type"
  | .noneType => "NoneType"
  | .ellipsis => "ellipsis"
  | .bool => "bool"
  | .int => "int"
  | .float => "float"
  | .str => "str"
  | .bytes => "bytes"
  | .tuple => "tuple"
  | .list => "list"
  | .dict => "dict"
  | .function => "function"
  | .builtinFunction => "builtin_function_or_method"
  | .method => "method"
  | .cell => "cell"
  | .code => "code"
  | .moduleType => "module"
  | .iterator => "iterator"

/-- The type with a given name. -/
def ofName? (text : String) : Option NativeType := all.find? fun candidate => candidate.name == text

/-- A type and its ancestors, nearest first. Every type derives from `object` directly, except that
`bool` derives from `int`. -/
def ancestors : NativeType → List NativeType
  | .object => [.object]
  | .bool => [.bool, .int, .object]
  | own => [own, .object]

/-- Whether classes may have the type among their bases: those without content of their own. -/
def isAcceptableBase : NativeType → Bool
  | .object | .type => true
  | _ => false

end NativeType

/-! ### Builtin functions -/

/-- The builtin functions. -/
inductive BuiltinFunction
  | buildClass
  | importModule
  | abs
  | chr
  | compile
  | getattr
  | hasattr
  | len
  | next
  | ord
  | pow
  | print
  | round
  | setattr
  deriving DecidableEq

namespace BuiltinFunction

/-- Every builtin function, in the order of declaration. -/
def all : List BuiltinFunction :=
  [.buildClass, .importModule, .abs, .chr, .compile, .getattr, .hasattr, .len, .next, .ord, .pow,
   .print, .round, .setattr]

/-- The name of a function as programs call it. -/
def name : BuiltinFunction → String
  | .buildClass => "__build_class__"
  | .importModule => "__import__"
  | .abs => "abs"
  | .chr => "chr"
  | .compile => "compile"
  | .getattr => "getattr"
  | .hasattr => "hasattr"
  | .len => "len"
  | .next => "next"
  | .ord => "ord"
  | .pow => "pow"
  | .print => "print"
  | .round => "round"
  | .setattr => "setattr"

/-- The function with a given name. -/
def ofName? (text : String) : Option BuiltinFunction :=
  all.find? fun function => function.name == text

end BuiltinFunction

/-- A builtin callable: a function, a type used as a constructor, or an exception class. -/
inductive Builtin
  | function (builtin : BuiltinFunction)
  | type (kind : NativeType)
  | exception (cls : ExceptionClass)
  deriving DecidableEq

/-! ### Compilation modes -/

/-- What a source text is compiled to. -/
inductive CompileMode
  /-- A sequence of statements. -/
  | exec
  /-- A single expression. -/
  | eval
  /-- A single interactive statement. -/
  | single
  deriving DecidableEq

namespace CompileMode

/-- The name of a mode as programs write it. -/
def name : CompileMode → String
  | .exec => "exec"
  | .eval => "eval"
  | .single => "single"

/-- The mode with a given name. -/
def ofName? (text : String) : Option CompileMode :=
  [exec, eval, single].find? fun mode => mode.name == text

end CompileMode

end Metaobject
