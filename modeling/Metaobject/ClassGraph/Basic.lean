import Metaobject.Heap

/-!
# The class graph

Names, linearizations, metaclasses and subtyping of classes in a heap. The linearization of a class
(`Heap.linearization`) lists the class and its ancestors, nearest first. One class is a subtype of
another when the other is in its linearization; `Heap.isSubtype` decides this without building
the list. The type of a value is a class (`Heap.typeOf`), and the type of a class is its
metaclass.
-/

set_option autoImplicit false
set_option relaxedAutoImplicit false

namespace Metaobject.Heap

/-! ### Names and linearizations -/

/-- The name of a class. -/
def className (heap : Heap) : ClassRef → String
  | .native kind => kind.name
  | .exception cls => cls.name
  | .user address => match heap.userClass? address with
    | some record => record.name
    | none => ""

/-- The ancestors stored with a class built at run time: its linearization without itself. -/
def storedLinearization (heap : Heap) (address : Address) : List ClassRef :=
  match heap.userClass? address with
  | some record => record.linearization
  | none => []

/-- The linearization of a class, itself first. -/
def linearization (heap : Heap) : ClassRef → List ClassRef
  | .native kind => kind.ancestors.map .native
  | .exception cls => cls.ancestors.map .exception ++ [.native .object]
  | .user address => .user address :: heap.storedLinearization address

/-! ### Subtyping -/

/-- Whether the first class is the second or derives from it. -/
def isSubtype (heap : Heap) : ClassRef → ClassRef → Bool
  | _, .native .object => true
  | .native kind, .native other => kind.ancestors.contains other
  | .exception cls, .exception other => cls.isSubclassOf other
  | .user address, other =>
    ClassRef.user address == other || (heap.storedLinearization address).contains other
  | _, _ => false

/-- Whether the instances of a class are classes. -/
def isMetatype (heap : Heap) (cls : ClassRef) : Bool := heap.isSubtype cls (.native .type)

/-- Whether a class built at run time derives from `type`. -/
def isMetaclass (heap : Heap) (address : Address) : Bool :=
  (heap.storedLinearization address).contains (.native .type)

/-! ### The type of a value -/

/-- The class of a class: `type` unless another metaclass built it. -/
def metaclassOf (heap : Heap) : ClassRef → ClassRef
  | .user address => match heap.userClass? address with
    | some record => record.metaclass
    | none => .native .type
  | _ => .native .type

/-- The class of a value. -/
def typeOf (heap : Heap) : Value → ClassRef
  | .null => .native .noneType
  | .ellipsis => .native .ellipsis
  | .bool _ => .native .bool
  | .int _ => .native .int
  | .long _ => .native .int
  | .float _ => .native .float
  | .text _ => .native .str
  | .bytes _ => .native .bytes
  | .tuple _ => .native .tuple
  | .list _ => .native .list
  | .dict _ => .native .dict
  | .builtin (.function _) => .native .builtinFunction
  | .builtin _ => .native .type
  | .userClass address => heap.metaclassOf (.user address)
  | .object address => match heap.instance? address with
    | some (cls, _) => .user cls
    | none => .native .object
  | .function _ => .native .function
  | .method _ => .native .method
  | .cell _ => .native .cell
  | .code _ => .native .code
  | .moduleObject _ => .native .moduleType
  | .iterator _ => .native .iterator
  | .exception address => match heap.exception? address with
    | some exception => .exception exception.cls
    | none => .native .object

/-- The name of the class of a value. -/
def typeName (heap : Heap) (value : Value) : String := heap.className (heap.typeOf value)

end Metaobject.Heap
