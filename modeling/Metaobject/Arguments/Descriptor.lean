import Metaobject.Arguments
import Metaobject.Text.Literal

/-!
# Argument descriptors

A descriptor such as `Oss|i:compile` lists one code per parameter, then a colon and the name of the
function. `O` takes any value, `s` and `U` take a string, `i` takes an integer that fits a word and
turns truth values into integers; the parameters after `|` are optional. Arguments are bound against
a descriptor by position and, where the parameters have names, by keyword (`Arguments.bind`).
-/

set_option autoImplicit false
set_option relaxedAutoImplicit false

namespace Metaobject

/-! ### Descriptors -/

/-- What a parameter accepts. -/
inductive ParameterKind
  | any
  | text
  | integer
  deriving DecidableEq

/-- A descriptor that was read: the function's name, its parameters, and how many of them are
required. -/
structure Descriptor where
  name : String
  kinds : List ParameterKind
  required : Nat
  deriving DecidableEq

namespace Descriptor

/-- What a parameter code stands for. -/
def kindOf? : Char → Option ParameterKind
  | 'O' => some .any
  | 's' => some .text
  | 'U' => some .text
  | 'i' => some .integer
  | _ => none

/-- A code that a descriptor cannot have. -/
def badCode (format : String) (code : Char) : Failure :=
  .internal ("unsupported code " ++ Text.Literal.character code ++ " in format " ++
    Text.Literal.text format)

/-- Reads codes: the kinds of the parameters, and the number of them before the bar. A second bar is
a bad code. -/
def readCodes (format : String) (kinds : List ParameterKind) (bar : Option Nat) :
    List Char → Except Failure (List ParameterKind × Option Nat)
  | [] => .ok (kinds, bar)
  | code :: rest => match kindOf? code with
    | some kind => readCodes format (kinds ++ [kind]) bar rest
    | none =>
      if code = '|' ∧ bar = none then readCodes format kinds (some kinds.length) rest
      else .error (badCode format code)

/-- Reads a descriptor; its name starts after the first colon. -/
def read (format : String) : Except Failure Descriptor :=
  let codes := format.toList.takeWhile (· ≠ ':')
  match format.toList.dropWhile (· ≠ ':') with
  | [] => .error (.internal ("format " ++ Text.Literal.text format ++ " has no function name"))
  | _ :: name => (readCodes format [] none codes).map fun (kinds, bar) =>
    ⟨String.ofList name, kinds, bar.getD kinds.length⟩

end Descriptor

/-! ### Conversion -/

/-- How an argument was given, for messages. -/
inductive ArgumentPlace
  | position (number : Nat)
  | keyword (key : String)

/-- An argument place as a message names it. -/
def ArgumentPlace.text : ArgumentPlace → String
  | position number => s!"argument {number}"
  | keyword key => s!"argument '{key}'"

/-- A value as a parameter takes it. -/
def ParameterKind.convert (heap : Heap) (name : String) (place : ArgumentPlace) :
    ParameterKind → Value → Except Exception Value
  | .any, value => .ok value
  | .text, .text content => .ok (.text content)
  | .text, value =>
    .error (.typeError (name ++ "() " ++ place.text ++ " must be str, not " ++ heap.typeName value))
  | .integer, .bool truth => .ok (.ofNat truth.toNat)
  | .integer, .int word => .ok (.int word)
  | .integer, .long _ => .error (.overflow "Python int too large to convert to C long")
  | .integer, value => .error (.notInteger (heap.typeName value))

namespace Arguments

/-! ### Binding -/

/-- The filled parameters, in order; a parameter that got no argument is empty. -/
abbrev Slots := List (Option Value)

/-- Converts the positional arguments in order. -/
def bindPositional (heap : Heap) (name : String) (position : Nat) :
    List ParameterKind → List Value → Except Exception Slots
  | [], _ => .ok []
  | kinds, [] => .ok (kinds.map fun _ => none)
  | kind :: kinds, value :: values => do
    let converted ← kind.convert heap name (.position position) value
    let rest ← bindPositional heap name (position + 1) kinds values
    .ok (some converted :: rest)

/-- Converts the keyword arguments in order, each into the first parameter of its name. -/
def bindKeywords (heap : Heap) (descriptor : Descriptor) (names : List String) (slots : Slots) :
    List (String × Value) → Except Exception Slots
  | [] => .ok slots
  | (key, value) :: rest => match names.findIdx? (· = key) with
    | none => .error (.unknownKeyword descriptor.name key)
    | some index =>
      if (slots[index]?.join).isSome then .error (.givenTwice descriptor.name key (index + 1))
      else do
        let kind := descriptor.kinds[index]?.getD .any
        let converted ← kind.convert heap descriptor.name (.keyword key) value
        bindKeywords heap descriptor names (slots.set index (some converted)) rest

/-- The exception for a required parameter that got no argument. -/
def missingFault (descriptor : Descriptor) (names : Option (List String)) (count index : Nat) :
    Exception :=
  match names with
  | some names => .missingArgument descriptor.name (names[index]?.getD "") (index + 1)
  | none =>
    if descriptor.required = descriptor.kinds.length then
      .wrongCount descriptor.name descriptor.kinds.length count
    else .tooFew descriptor.name descriptor.required count

/-- Puts defaults into the empty optional parameters, from the parameter `index` on. -/
def fill (descriptor : Descriptor) (names : Option (List String)) (count index : Nat) :
    Slots → List Value → Except Exception (List Value)
  | slot :: slots, default :: defaults => do
    let value ← match slot with
      | some value => .ok value
      | none =>
        if index < descriptor.required then .error (missingFault descriptor names count index)
        else .ok default
    let rest ← fill descriptor names count (index + 1) slots defaults
    .ok (value :: rest)
  | _, _ => .ok []

/-- Binds arguments against a descriptor that was read. -/
def bindTo (heap : Heap) (arguments : Arguments) (descriptor : Descriptor)
    (names : Option (List String)) (defaults : List Value) : Except Exception (List Value) := do
  let most := descriptor.kinds.length
  if most < arguments.count then throw (.overfull descriptor.name most arguments.count)
  let positional ← bindPositional heap descriptor.name 1 descriptor.kinds arguments.positional
  let slots ← match arguments.keywords, names with
    | none, _ => .ok positional
    | some _, none => .error (.noKeywords descriptor.name)
    | some _, some names =>
      bindKeywords heap descriptor names positional (arguments.keywordList heap)
  fill descriptor names arguments.count 0 slots defaults

/-- Binds arguments against a descriptor with as many parameters as there are defaults. With
`names` the parameters may be given by keyword. -/
def bind (heap : Heap) (arguments : Arguments) (format : String) (names : Option (List String))
    (defaults : List Value) : Except Failure (List Value) := do
  let descriptor ← Descriptor.read format
  if descriptor.kinds.length ≠ defaults.length then
    throw (.internal (s!"format {Text.Literal.text format} describes " ++
      s!"{descriptor.kinds.length} arguments, caller expects {defaults.length}"))
  orRaised (arguments.bindTo heap descriptor names defaults)

end Arguments

end Metaobject
