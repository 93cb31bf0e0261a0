import Metaobject.Builtin

/-!
# Values

The dynamic values of the runtime. Numbers, text, bytes and tuples are immutable and carry their
content; every other object lives in the heap and is known by its address, so two values denote the
same object exactly when their addresses agree. An integer is written inline while it fits a signed
64-bit word and is long otherwise; `Value.ofInt` is the one way from an integer to its form.
-/

set_option autoImplicit false
set_option relaxedAutoImplicit false

namespace Metaobject

/-- The place of an object in the heap, which is its identity. -/
abbrev Address := Nat

/-- A class: a native type, an exception class, or a class built at run time. -/
inductive ClassRef
  | native (kind : NativeType)
  | exception (cls : ExceptionClass)
  | user (address : Address)
  deriving DecidableEq

/-- A value. The addressed constructors name an object of that kind in the heap. -/
inductive Value
  | null
  | ellipsis
  | bool (truth : Bool)
  /-- An integer that fits a word. -/
  | int (word : Int64)
  /-- An integer that fits no word. -/
  | long (value : Int)
  | float (number : Float)
  | text (content : String)
  | bytes (content : List UInt8)
  | tuple (items : List Value)
  | list (address : Address)
  | dict (address : Address)
  | builtin (builtin : Builtin)
  | userClass (address : Address)
  /-- An object built by calling a user class. -/
  | object (address : Address)
  | function (address : Address)
  | method (address : Address)
  | cell (address : Address)
  | code (address : Address)
  | moduleObject (address : Address)
  | iterator (address : Address)
  | exception (address : Address)

instance : Inhabited Value := ⟨.null⟩

namespace Value

/-! ### Integers -/

/-- Whether an integer fits a signed 64-bit word. -/
def fitsWord (value : Int) : Bool :=
  decide (-0x8000000000000000 ≤ value ∧ value < 0x8000000000000000)

/-- An integer in its one form. -/
def ofInt (value : Int) : Value :=
  if fitsWord value then .int (Int64.ofInt value) else .long value

/-- A natural number in its one form. -/
def ofNat (value : Nat) : Value := ofInt value

/-- The integer that a number of an integer type denotes; truth values count as zero and one. -/
def integer? : Value → Option Int
  | .bool truth => some truth.toNat
  | .int word => some word.toInt
  | .long value => some value
  | _ => none

/-- The integer that a value denotes, if it fits a word. -/
def word? (value : Value) : Option Int := value.integer?.filter fitsWord

/-- The text of a string value. -/
def text? : Value → Option String
  | .text content => some content
  | _ => none

/-- Whether a value is `null`. -/
def isNull : Value → Bool
  | .null => true
  | _ => false

/-! ### Options as values -/

/-- An optional value as a tuple of at most one item. -/
def ofOption : Option Value → Value
  | none => .tuple []
  | some value => .tuple [value]

end Value

/-! ### Classes and values -/

/-- The value that a class is at run time. -/
def ClassRef.toValue : ClassRef → Value
  | .native kind => .builtin (.type kind)
  | .exception cls => .builtin (.exception cls)
  | .user address => .userClass address

/-- The class that a value is, if it is one. -/
def Value.class? : Value → Option ClassRef
  | .builtin (.type kind) => some (.native kind)
  | .builtin (.exception cls) => some (.exception cls)
  | .userClass address => some (.user address)
  | _ => none

@[simp] theorem ClassRef.class?_toValue (cls : ClassRef) : cls.toValue.class? = some cls := by
  cases cls <;> rfl

end Metaobject
