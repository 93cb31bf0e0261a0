import Metaobject.Builtin

/-!
# Scripts

The language in which code objects are written. A body is a list of statements; a statement may end
the body with a result (`Statement.result`). Expressions are evaluated from left to right and build
fresh containers and functions each time. Probes are the direct operations that scripts may apply to
objects beside calling them.
-/

set_option autoImplicit false
set_option relaxedAutoImplicit false

namespace Metaobject.Script

/-! ### Probes -/

/-- Direct operations on any value. -/
inductive ValueProbe
  | written
  | text
  | isTrue
  | word
  | content
  | cls
  | typeOf
  | equal
  | same

/-- Direct operations of the runtime, which may run code. -/
inductive RuntimeProbe
  | length
  | absolute
  | power
  | round
  | iterate
  | collect
  | text
  | getAttribute
  | setAttribute
  | depth
  | next
  | runCode

/-- Direct operations on classes and their instances. -/
inductive ClassProbe
  | name
  | linearization
  | isSubtype
  | isMetatype
  | metaclass
  | lookup
  | mostDerivedMetaclass
  | bases
  | namespaceDict
  | isMetaclass
  | instanceClass
  | instanceDict

/-- Direct operations on dicts. -/
inductive DictProbe
  | get
  | set
  | remove
  | contains
  | size
  | isEmpty
  | keys
  | items
  | copy

/-- Direct operations on cells, functions, methods, code, modules, exceptions, iterators, lists. -/
inductive ObjectProbe
  | newCell
  | cellContent
  | setCell
  | fillCell
  | cellIsEmpty
  | functionName
  | functionGlobals
  | functionCode
  | functionClosure
  | functionLocals
  | newMethod
  | methodReceiver
  | methodFunction
  | codeName
  | codeFile
  | codeParameters
  | codeIsClassBody
  | moduleName
  | moduleDict
  | newException
  | exceptionMessage
  | exceptionWritten
  | exceptionReport
  | exceptionArgument
  | newIterator
  | append

/-- A direct operation. -/
inductive Probe
  | value (probe : ValueProbe)
  | runtime (probe : RuntimeProbe)
  | cls (probe : ClassProbe)
  | dict (probe : DictProbe)
  | object (probe : ObjectProbe)

/-! ### Expressions and statements -/

/-- An expression whose value is fixed. -/
inductive Literal
  | null
  | ellipsis
  | bool (truth : Bool)
  | int (value : Int)
  | float (number : Float)
  | text (content : String)
  | bytes (content : List UInt8)
  | nativeType (kind : NativeType)
  | exceptionClass (cls : ExceptionClass)

/-- The containers of one item that an expression can nest. -/
inductive Wrapping
  | list
  | tuple
  | dict

/-- The scope that an assignment writes to. -/
inductive Scope
  | locals
  | globals

mutual

/-- An expression. -/
inductive Expression
  | literal (literal : Literal)
  /-- A variable, sought in the locals and then in the globals. -/
  | variable (name : String)
  /-- A name of the builtin registry. -/
  | builtin (name : String)
  | tuple (items : List Expression)
  | list (items : List Expression)
  | dict (pairs : List (String × Expression))
  /-- A value inside `times` containers of one item. -/
  | nest (times : Nat) (wrapping : Wrapping) (core : Expression)
  /-- A cell of the closure. -/
  | closureCell (index : Nat)
  | call (callee : Expression) (positional : List Expression) (keywords : Keywords)
  /-- A call of a builtin by its registry name. -/
  | callBuiltin (name : String) (positional : List Expression) (keywords : Keywords)
  | probe (probe : Probe) (arguments : List Expression)
  /-- A new function with a new code object. -/
  | function (name : String) (code : CodeExpression) (defaults closure : List Expression)
      (globals : Option Expression)
  | moduleObject (name : String) (pairs : List (String × Expression))
  /-- The last of `count` classes, each with the one before it as its base. -/
  | chain (count : Nat) (stem : String) (base : Expression)

/-- The keyword arguments of a call: none, fresh ones, or an existing dict. -/
inductive Keywords
  | absent
  | pairs (pairs : List (String × Expression))
  | dict (dict : Expression)

/-- The code of a function expression. -/
inductive CodeExpression
  | mk (filename : String) (parameters : List String) (isClassBody : Bool) (body : Body)

/-- What a code object holds: a script, or something that no script executor can run. -/
inductive Body
  | script (statements : List Statement)
  | foreign

/-- A statement. -/
inductive Statement
  | assign (scope : Scope) (name : String) (content : Expression)
  | evaluate (expression : Expression)
  /-- Leaves the body with a result. -/
  | result (expression : Expression)
  | raise (cls : ExceptionClass) (message : Option String)
  /-- Ends the run with an internal error. -/
  | fault (message : String)
  | branch (condition : Expression) (yes no : List Statement)
  | loop (times : Nat) (body : List Statement)
  /-- Runs `recovery` when `body` raises an exception of the class or of one below it. -/
  | protect (body : List Statement) (handled : ExceptionClass) (binding : Option String)
      (recovery : List Statement)

end

end Metaobject.Script
