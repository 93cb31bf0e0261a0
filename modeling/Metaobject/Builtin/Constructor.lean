import Metaobject.ClassCreation
import Metaobject.Number.Numeral
import Metaobject.Operation.Iteration
import Metaobject.Operation.Number
import Metaobject.Operation.Text

/-!
# Types as constructors

Calls of native types and of exception classes. `type` of one value is its class, and of three it
creates a class; `int`, `float`, `str`, `bool`, `tuple`, `list` and `dict` convert a value, or give
the empty one; the other native types cannot be called. An exception class makes an exception, with
the native text of its argument.
-/

set_option autoImplicit false
set_option relaxedAutoImplicit false

namespace Metaobject.Constructor

/-! ### Numbers -/

/-- The integer that a value converts to. Doubles lose their fraction. -/
def integerOf (heap : Heap) : Value → Except Exception Value
  | .float number =>
    if number.isNaN then .error .notNumberToInteger
    else if number.isInf then .error .infinityToInteger
    else .ok (.ofInt (Number.Binary64.truncate number))
  | .text content => match Number.Numeral.integer? content with
    | some integer => .ok (.ofInt integer)
    | none => .error (.valueError
        ("invalid literal for int() with base 10: " ++ Text.Quoted.text content))
  | .int word => .ok (.int word)
  | .long value => .ok (.long value)
  | value => match value.integer? with
    | some integer => .ok (.ofInt integer)
    | none => .error (.typeError
        ("int() argument must be a string, a bytes-like object or a real number, not '" ++
          heap.typeName value ++ "'"))

/-- The double that a value converts to. -/
def doubleOf (heap : Heap) : Value → Except Exception Value
  | .text content => match Number.Numeral.float? content with
    | some number => .ok (.float number)
    | none => .error (.valueError
        ("could not convert string to float: " ++ Text.Quoted.text content))
  | .long value =>
    let number := Number.Binary64.ofInt value
    if number.isFinite then .ok (.float number)
    else .error (.overflow "int too large to convert to float")
  | value => match value.float? with
    | some number => .ok (.float number)
    | none => .error (.typeError
        ("float() argument must be a string or a real number, not '" ++ heap.typeName value ++
          "'"))

/-! ### Dicts -/

/-- The entries of a new dict: a copy of a dict, or none, and then the keyword arguments. -/
def dictEntries (heap : Heap) (arguments : Arguments) : Except Exception (Entries Value) :=
  match arguments.positional with
  | [] => .ok (Entries.empty.insertAll (arguments.keywordList heap))
  | [.dict source] => .ok ((heap.entries source).insertAll (arguments.keywordList heap))
  | [other] => .error (.notMapping (heap.typeName other))
  | _ => .error (.tooMany NativeType.dict.name 1 arguments.count)

/-! ### Calls -/

/-- Calls `type`. -/
def runType (arguments : Arguments) : Program Value := do
  let heap ← Program.heap
  match arguments.positional, arguments.keywords with
  | [value], none => return (heap.typeOf value).toValue
  | [_, _, _], _ => ClassCreation.create (.native .type) arguments
  | _, _ => .raise (.typeError "type() takes 1 or 3 arguments")

/-- Calls a native type. -/
def runNative (kind : NativeType) (arguments : Arguments) : Program Value := do
  let heap ← Program.heap
  match kind with
  | .type => runType arguments
  | .int => .ofExcept (integerOf heap (← .ofFailure (arguments.optional kind.name (.ofNat 0))))
  | .float => .ofExcept (doubleOf heap (← .ofFailure (arguments.optional kind.name (.float 0.0))))
  | .str =>
    let value ← .ofFailure (arguments.optional kind.name (.text ""))
    return .text (← Operation.textOf value)
  | .bool =>
    let value ← .ofFailure (arguments.optional kind.name (.bool false))
    return .bool (heap.isTrue value)
  | .tuple =>
    let value ← .ofFailure (arguments.optional kind.name (.tuple []))
    return .tuple (← Operation.collect value)
  | .list =>
    let value ← .ofFailure (arguments.optional kind.name (.tuple []))
    .new (.newList (← Operation.collect value)) .list
  | .dict => .new (.newDict (← .ofExcept (dictEntries heap arguments))) .dict
  | _ => .raise (.notInstantiable kind.name)

/-- Calls an exception class: an exception with no argument or with the text of one. -/
def runException (cls : ExceptionClass) (arguments : Arguments) : Program Value := do
  let heap ← Program.heap
  .ofExcept (arguments.refuseKeywords cls.name)
  match arguments.positional with
  | [] => .new (.newException ⟨cls, none⟩) .exception
  | [value] => .new (.newException ⟨cls, some (heap.text value)⟩) .exception
  | _ => .raise (.tooMany cls.name 1 arguments.count)

end Metaobject.Constructor
