import Metaobject.Registry
import Metaobject.Script.Probing

/-!
# Evaluating expressions

The program that an expression is (`evaluate`). Its parts are evaluated from left to right,
arguments before the call, and the first exception ends the evaluation.
-/

set_option autoImplicit false
set_option relaxedAutoImplicit false

namespace Metaobject.Script

/-! ### Pieces -/

/-- The value of a literal. -/
def Literal.value : Literal → Value
  | .null => .null
  | .ellipsis => .ellipsis
  | .bool truth => .bool truth
  | .int value => .ofInt value
  | .float number => .float number
  | .text content => .text content
  | .bytes content => .bytes content
  | .nativeType kind => .builtin (.type kind)
  | .exceptionClass cls => .builtin (.exception cls)

/-- The value of a variable: from the locals, or else from the globals. -/
def variableValue (frame : Frame) (name : String) : Program Value := do
  let heap ← Program.heap
  match (heap.entries frame.locals).find? name with
  | some value => return value
  | none => match (heap.entries frame.globals).find? name with
    | some value => return value
    | none => .raise (.undefinedName name)

/-- The value of a name of the builtin registry. -/
def builtinValue (name : String) : Program Value :=
  match Registry.find? name with
  | some value => .done value
  | none => .raise (.undefinedName name)

/-- A new dict of pairs. -/
def newDict (pairs : List (String × Value)) : Program Value :=
  .new (.newDict (.ofList pairs)) .dict

/-- The key under which a nesting dict holds its content. -/
def nestingKey : String := "k"

/-- A value inside one new container. -/
def wrapOnce (content : Value) : Wrapping → Program Value
  | .list => .new (.newList [content]) .list
  | .tuple => .done (.tuple [content])
  | .dict => newDict [(nestingKey, content)]

/-- A value inside `times` new containers. -/
def wrap (wrapping : Wrapping) : Nat → Value → Program Value
  | 0, content => .done content
  | times + 1, content => do wrap wrapping times (← wrapOnce content wrapping)

/-- Calls a value with positional arguments and an optional keyword dict. -/
def callWith (callable : Value) (positional : List Value) (keywords : Option Address) :
    Program Value := do
  let heap ← Program.heap
  Program.call callable (.of heap positional keywords)

/-- `count` classes from `index` on, each created from the one before it; gives the last. -/
def chainClasses (stem : String) (index : Nat) : Nat → Value → Program Value
  | 0, base => .done base
  | count + 1, base => do
    let attributes ← newDict []
    let name := stem ++ toString index
    let cls ← callWith (.builtin (.type .type)) [.text name, .tuple [base], attributes] none
    chainClasses stem (index + 1) count cls

/-- A new code object. -/
def newCode (name : String) : CodeExpression → Program Address
  | .mk filename parameters isClassBody body =>
    Program.effect (.newCode
      ⟨name, filename, if isClassBody then [] else parameters, isClassBody, body⟩)

/-- A dict value as its address. -/
def dictAddress : Value → Program Address
  | .dict address => .done address
  | _ => .fault "a scope or keyword argument is not a dict"

/-- Cell values as their addresses. -/
def closureAddresses (values : List Value) : Program (List Address) :=
  match cellAddresses values with
  | some addresses => .done addresses
  | none => .fault "a closure holds something that is not a cell"

/-! ### Expressions -/

mutual

/-- The value of an expression. -/
def evaluate (frame : Frame) : Expression → Program Value
  | .literal literal => .done literal.value
  | .variable name => variableValue frame name
  | .builtin name => builtinValue name
  | .tuple items => do return .tuple (← evaluateAll frame items)
  | .list items => do .new (.newList (← evaluateAll frame items)) .list
  | .dict pairs => do newDict (← evaluatePairs frame pairs)
  | .nest times wrapping core => do wrap wrapping times (← evaluate frame core)
  | .closureCell index => match frame.closure[index]? with
    | some address => .done (.cell address)
    | none => .fault "a closure has no such cell"
  | .call callee positional keywords => do
    let callable ← evaluate frame callee
    let arguments ← evaluateAll frame positional
    callWith callable arguments (← evaluateKeywords frame keywords)
  | .callBuiltin name positional keywords => do
    let arguments ← evaluateAll frame positional
    let keywords ← evaluateKeywords frame keywords
    callWith (← builtinValue name) arguments keywords
  | .probe probe arguments => do probe.run (← evaluateAll frame arguments)
  | .function name code defaults closure globals => do
    let globals ← evaluateGlobals frame globals
    let closure ← closureAddresses (← evaluateAll frame closure)
    let defaults ← evaluateAll frame defaults
    let code ← newCode name code
    .new (.newFunction ⟨name, globals, code, closure, defaults⟩) .function
  | .moduleObject name pairs => do
    .new (.newModule name (.ofList (← evaluatePairs frame pairs))) .moduleObject
  | .chain count stem base => do chainClasses stem 0 count (← evaluate frame base)

/-- The values of expressions in order. -/
def evaluateAll (frame : Frame) : List Expression → Program (List Value)
  | [] => .done []
  | expression :: rest => do
    let value ← evaluate frame expression
    let values ← evaluateAll frame rest
    return value :: values

/-- The values of expressions in order, with their keys. -/
def evaluatePairs (frame : Frame) : List (String × Expression) → Program (List (String × Value))
  | [] => .done []
  | (key, expression) :: rest => do
    let value ← evaluate frame expression
    let values ← evaluatePairs frame rest
    return (key, value) :: values

/-- The keyword dict of a call. -/
def evaluateKeywords (frame : Frame) : Keywords → Program (Option Address)
  | .absent => .done none
  | .pairs pairs => do
    let values ← evaluatePairs frame pairs
    return some (← Program.effect (.newDict (.ofList values)))
  | .dict dict => do return some (← dictAddress (← evaluate frame dict))

/-- The globals of a function: those of the defining frame unless others are given. -/
def evaluateGlobals (frame : Frame) : Option Expression → Program Address
  | none => .done frame.globals
  | some globals => do dictAddress (← evaluate frame globals)

end

end Metaobject.Script
