import Metaobject.ClassGraph.Basic
import Metaobject.Number.FloatText
import Metaobject.Text.Quoted

/-!
# The written form of values

The text that shows a value (`Heap.written`): numbers in decimal, texts and bytes in quotes,
containers as their items between brackets, and every other object as its kind and name between
angle brackets. The text of a value (`Heap.text`) is the same, except that a string is its own text
and an exception has its message as text.

The written form descends through lists, dicts and methods, so it takes as many steps down as the
heap has objects (`Heap.writtenWithin`); values that do not contain themselves need no more.
-/

set_option autoImplicit false
set_option relaxedAutoImplicit false

namespace Metaobject.Heap

/-! ### Pieces -/

/-- Written items with a comma and a blank between them. -/
def joined (items : List String) : String := ", ".intercalate items

/-- A tuple from its written items; a single item is followed by a comma. -/
def writtenTuple : List String → String
  | [item] => "(" ++ item ++ ",)"
  | items => "(" ++ joined items ++ ")"

/-- A list from its written items. -/
def writtenList (items : List String) : String := "[" ++ joined items ++ "]"

/-- A dict from its keys and written values. -/
def writtenDict (pairs : List (String × String)) : String :=
  "\x7b" ++ joined (pairs.map fun (key, content) => Text.Quoted.text key ++ ": " ++ content) ++
    "\x7d"

/-- A class by its name, after the name of its module unless that is the builtin one. -/
def writtenClass (heap : Heap) (address : Address) : String :=
  let name := heap.className (.user address)
  match (heap.userClass? address).bind fun record =>
      (heap.entries record.namespaceDict).find? "__module__" with
  | some (.text moduleName) =>
    if moduleName = "builtins" then "<class '" ++ name ++ "'>"
    else "<class '" ++ moduleName ++ "." ++ name ++ "'>"
  | _ => "<class '" ++ name ++ "'>"

/-- The name of a user function. -/
def functionName (heap : Heap) (address : Address) : String :=
  match heap.function? address with
  | some record => record.name
  | none => ""

/-- A code object by its name and the file it is from. -/
def writtenCode (heap : Heap) (address : Address) : String :=
  match heap.code? address with
  | some record => "<code object " ++ record.name ++ ", file \"" ++ record.filename ++ "\">"
  | none => "<code object>"

/-- A module by its name. -/
def writtenModule (heap : Heap) (address : Address) : String :=
  match heap.module? address with
  | some (name, _) => "<module '" ++ name ++ "'>"
  | none => "<module>"

/-- An exception as the call that creates it. -/
def writtenException (heap : Heap) (address : Address) : String :=
  match heap.exception? address with
  | some exception => exception.written
  | none => "<exception>"

/-- A cell shows only whether it is empty. -/
def writtenCell (heap : Heap) (address : Address) : String :=
  if (heap.cellContent? address).isNone then "<cell: empty>" else "<cell>"

/-- A builtin by its name. -/
def writtenBuiltin : Builtin → String
  | .function builtin => "<built-in function " ++ builtin.name ++ ">"
  | .type kind => "<class '" ++ kind.name ++ "'>"
  | .exception cls => "<class '" ++ cls.name ++ "'>"

/-! ### Values -/

mutual

/-- The written form of a value, given the written form of a list, a dict or a method. -/
def writtenOver (heap : Heap) (contents : Value → String) : Value → String
  | .null => "None"
  | .ellipsis => "Ellipsis"
  | .bool true => "True"
  | .bool false => "False"
  | .int word => toString word.toInt
  | .long value => toString value
  | .float number => Number.FloatText.text number
  | .text content => Text.Quoted.text content
  | .bytes content => Text.Quoted.bytes content
  | .tuple items => writtenTuple (heap.writtenItems contents items)
  | .list address => contents (.list address)
  | .dict address => contents (.dict address)
  | .builtin builtin => writtenBuiltin builtin
  | .userClass address => heap.writtenClass address
  | .object address => "<" ++ heap.typeName (.object address) ++ " object>"
  | .function address => "<function " ++ heap.functionName address ++ ">"
  | .method address => contents (.method address)
  | .cell address => heap.writtenCell address
  | .code address => heap.writtenCode address
  | .moduleObject address => heap.writtenModule address
  | .iterator _ => "<iterator object>"
  | .exception address => heap.writtenException address

/-- The written forms of items in order. -/
def writtenItems (heap : Heap) (contents : Value → String) : List Value → List String
  | [] => []
  | item :: rest => heap.writtenOver contents item :: heap.writtenItems contents rest

end

/-- A list, a dict or a method, given the written form of what it holds. -/
def writtenContents (heap : Heap) (write : Value → String) : Value → String
  | .list address => writtenList ((heap.items address).map write)
  | .dict address =>
    writtenDict ((heap.entries address).toList.map fun (key, content) => (key, write content))
  | .method address => match heap.method? address with
    | some (receiver, function) =>
      let name := match function with
        | .function functionAddress => heap.functionName functionAddress
        | other => write other
      "<bound method " ++ name ++ " of " ++ write receiver ++ ">"
    | none => "<bound method>"
  | _ => ""

/-- The written form of a value that holds lists, dicts and methods at most `steps` deep; deeper
ones are three dots. -/
def writtenWithin (heap : Heap) : Nat → Value → String
  | 0 => heap.writtenOver fun _ => "..."
  | steps + 1 => heap.writtenOver (heap.writtenContents (heap.writtenWithin steps))

/-- The written form of a value. -/
def written (heap : Heap) (value : Value) : String := heap.writtenWithin heap.size value

/-- The text of a value, without running any code. -/
def text (heap : Heap) : Value → String
  | .text content => content
  | .exception address => match heap.exception? address with
    | some exception => exception.message
    | none => ""
  | value => heap.written value

end Metaobject.Heap
