import Metaobject.Entries
import Metaobject.Exception
import Metaobject.Script.Syntax
import Metaobject.Value

/-!
# The heap

Objects by address. The heap only grows: `Heap.allocate` puts a new object at the next address, so
addresses are in the order of creation, and an object keeps its kind for good. Dicts, lists, cells
and iterators change in place; classes, instances, functions, methods, code, modules and exceptions
are fixed once made, and those with attributes hold the address of a dict. Reading at an address
that holds no object of the kind asked for gives nothing.
-/

set_option autoImplicit false
set_option relaxedAutoImplicit false

namespace Metaobject

/-! ### Objects -/

/-- A class built at run time. The linearization is stored without the class itself. -/
structure ClassRecord where
  name : String
  metaclass : ClassRef
  bases : List ClassRef
  linearization : List ClassRef
  namespaceDict : Address

/-- A code object. -/
structure CodeRecord where
  name : String
  filename : String
  parameters : List String
  isClassBody : Bool
  body : Script.Body

/-- A user function: code with the globals and the cells it was made with, and the defaults of its
last parameters. -/
structure FunctionRecord where
  name : String
  globals : Address
  code : Address
  closure : List Address
  defaults : List Value

/-- An object of the heap. -/
inductive Object
  | list (items : List Value)
  | dict (entries : Entries Value)
  | cell (content : Option Value)
  /-- The items that an iterator has not yet given. -/
  | iterator (remaining : List Value)
  | userClass (record : ClassRecord)
  /-- An instance: its class and its attribute dict. -/
  | instanceOf (cls attributes : Address)
  | function (record : FunctionRecord)
  | method (receiver function : Value)
  | code (record : CodeRecord)
  | moduleObject (name : String) (namespaceDict : Address)
  | exception (exception : Exception)

/-- Objects by address. -/
structure Heap where
  objects : Array Object

namespace Heap

/-- No objects. -/
def empty : Heap := ⟨#[]⟩

/-- The number of objects, and the address of the next one. -/
def size (heap : Heap) : Nat := heap.objects.size

/-- The object at an address. -/
def get? (heap : Heap) (address : Address) : Option Object := heap.objects[address]?

/-- The heap with one more object, at the address `heap.size`. -/
def allocate (heap : Heap) (object : Object) : Heap := ⟨heap.objects.push object⟩

/-- The heap with another object at a used address. -/
def replace (heap : Heap) (address : Address) (object : Object) : Heap :=
  ⟨heap.objects.setIfInBounds address object⟩

@[simp] theorem size_allocate (heap : Heap) (object : Object) :
    (heap.allocate object).size = heap.size + 1 :=
  Array.size_push object

@[simp] theorem size_replace (heap : Heap) (address : Address) (object : Object) :
    (heap.replace address object).size = heap.size :=
  Array.size_setIfInBounds

/-- There is an object at exactly the addresses below the size. -/
theorem get?_eq_none_iff (heap : Heap) (address : Address) :
    heap.get? address = none ↔ heap.size ≤ address :=
  Array.getElem?_eq_none_iff

/-- A new object is at the next address, and the others stay where they are. -/
theorem get?_allocate (heap : Heap) (object : Object) (address : Address) :
    (heap.allocate object).get? address =
      if address = heap.size then some object else heap.get? address :=
  Array.getElem?_push

/-- Replacing an object changes what is read at its address only. -/
theorem get?_replace (heap : Heap) (address other : Address) (object : Object) :
    (heap.replace address object).get? other =
      if address = other then (if address < heap.size then some object else none)
      else heap.get? other :=
  Array.getElem?_setIfInBounds

/-! ### Reading by kind -/

/-- The items of a list. -/
def list? (heap : Heap) (address : Address) : Option (List Value) :=
  match heap.get? address with
  | some (.list items) => some items
  | _ => none

/-- The items of a list; none at any other address. -/
def items (heap : Heap) (address : Address) : List Value := (heap.list? address).getD []

/-- The entries of a dict. -/
def dict? (heap : Heap) (address : Address) : Option (Entries Value) :=
  match heap.get? address with
  | some (.dict entries) => some entries
  | _ => none

/-- The entries of a dict; none at any other address. -/
def entries (heap : Heap) (address : Address) : Entries Value :=
  (heap.dict? address).getD .empty

/-- The content of a cell, which may be empty. -/
def cell? (heap : Heap) (address : Address) : Option (Option Value) :=
  match heap.get? address with
  | some (.cell content) => some content
  | _ => none

/-- The value in a cell. -/
def cellContent? (heap : Heap) (address : Address) : Option Value := (heap.cell? address).join

/-- The items that an iterator has not yet given. -/
def remaining (heap : Heap) (address : Address) : List Value :=
  match heap.get? address with
  | some (.iterator remaining) => remaining
  | _ => []

/-- A class built at run time. -/
def userClass? (heap : Heap) (address : Address) : Option ClassRecord :=
  match heap.get? address with
  | some (.userClass record) => some record
  | _ => none

/-- The class and the attribute dict of an instance. -/
def instance? (heap : Heap) (address : Address) : Option (Address × Address) :=
  match heap.get? address with
  | some (.instanceOf cls attributes) => some (cls, attributes)
  | _ => none

/-- A user function. -/
def function? (heap : Heap) (address : Address) : Option FunctionRecord :=
  match heap.get? address with
  | some (.function record) => some record
  | _ => none

/-- The receiver and the function of a bound method. -/
def method? (heap : Heap) (address : Address) : Option (Value × Value) :=
  match heap.get? address with
  | some (.method receiver function) => some (receiver, function)
  | _ => none

/-- A code object. -/
def code? (heap : Heap) (address : Address) : Option CodeRecord :=
  match heap.get? address with
  | some (.code record) => some record
  | _ => none

/-- The name and the namespace dict of a module. -/
def module? (heap : Heap) (address : Address) : Option (String × Address) :=
  match heap.get? address with
  | some (.moduleObject name namespaceDict) => some (name, namespaceDict)
  | _ => none

/-- An exception object. -/
def exception? (heap : Heap) (address : Address) : Option Exception :=
  match heap.get? address with
  | some (.exception exception) => some exception
  | _ => none

/-! ### Changing in place -/

/-- Replaces the entries of a dict; nothing happens at any other address. -/
def updateDict (heap : Heap) (address : Address) (change : Entries Value → Entries Value) : Heap :=
  match heap.dict? address with
  | some entries => heap.replace address (.dict (change entries))
  | none => heap

/-- Puts a value into a cell; nothing happens at any other address. -/
def setCell (heap : Heap) (address : Address) (content : Value) : Heap :=
  match heap.cell? address with
  | some _ => heap.replace address (.cell (some content))
  | none => heap

/-- Adds an item to the end of a list; nothing happens at any other address. -/
def append (heap : Heap) (address : Address) (item : Value) : Heap :=
  match heap.list? address with
  | some items => heap.replace address (.list (items ++ [item]))
  | none => heap

/-- Takes items from an iterator, so that `remaining` are left; nothing happens at any other
address. -/
def advance (heap : Heap) (address : Address) (remaining : List Value) : Heap :=
  match heap.get? address with
  | some (.iterator _) => heap.replace address (.iterator remaining)
  | _ => heap

/-- The dict that holds the attributes stored on an object: of an instance its own, of a class or a
module its namespace. -/
def attributeDict? (heap : Heap) (address : Address) : Option Address :=
  match heap.get? address with
  | some (.instanceOf _ attributes) => some attributes
  | some (.userClass record) => some record.namespaceDict
  | some (.moduleObject _ namespaceDict) => some namespaceDict
  | _ => none

end Heap

end Metaobject
