import Metaobject.Arguments.Descriptor
import Metaobject.Attribute
import Metaobject.Operation.Iteration
import Metaobject.Operation.Number

/-!
# Builtin functions on single values

The builtin functions that apply one operation: numbers (`abs`, `pow`, `round`), lengths and
iteration (`len`, `next`), characters (`chr`, `ord`) and attributes (`getattr`, `hasattr`,
`setattr`). Each binds its arguments first.
-/

set_option autoImplicit false
set_option relaxedAutoImplicit false

namespace Metaobject.BuiltinFunction

/-! ### Numbers -/

/-- The absolute value. -/
def runAbs (arguments : Arguments) : Program Value := do
  Operation.absolute (← .ofFailure (arguments.one abs.name))

/-- The power; a modulus of `null` counts as none. -/
def runPow (arguments : Arguments) : Program Value := do
  match ← .ofExcept (arguments.withDefaults pow.name 2 [.null, .null, .null]) with
  | [base, exponent, .null] => Operation.power base exponent none
  | [base, exponent, modulus] => Operation.power base exponent (some modulus)
  | _ => .ofFailure (.error Arguments.miscounted)

/-- Rounding, to no decimal places unless they are given. -/
def runRound (arguments : Arguments) : Program Value := do
  match ← .ofExcept (arguments.withDefaults round.name 1 [.null, .ofNat 0]) with
  | [number, digits] => Operation.round number digits
  | _ => .ofFailure (.error Arguments.miscounted)

/-! ### Lengths and iteration -/

/-- The length of a container. -/
def runLen (arguments : Arguments) : Program Value := do
  let length ← Operation.length (← .ofFailure (arguments.one len.name))
  return .ofNat length

/-- The next item of an iterator. A default stands in for exhaustion and for nothing else; without
one, exhaustion raises what the iterator raised. -/
def runNext (arguments : Arguments) : Program Value := do
  let (iterator, default) ← .ofFailure (arguments.oneOrTwo next.name)
  match ← Operation.advance iterator, default with
  | .produced item, _ => return item
  | .exhausted _, some default => return default
  | .exhausted signal, none => .raise (signal.getD .stopIteration)

/-! ### Characters -/

/-- One past the greatest code point. -/
def codePointLimit : Int := 0x110000

/-- The character of a code point; surrogates have none and give the replacement character. -/
def characterOf (code : Nat) : Char :=
  if code.isValidChar then Char.ofNat code else '\ufffd'

/-- The string of one character with a given code point. -/
def runChr (arguments : Arguments) : Program Value := do
  let heap ← Program.heap
  match ← .ofFailure (arguments.bind heap "O:chr" none [.null]) with
  | [value] => match value.integer? with
    | some code =>
      if 0 ≤ code ∧ code < codePointLimit then
        return .text (String.singleton (characterOf code.toNat))
      else .raise (.valueError "chr() arg not in range(0x110000)")
    | none => .raise (.notInteger (heap.typeName value))
  | _ => .ofFailure (.error Arguments.miscounted)

/-- The exception for a text of other than one character. -/
def notCharacter (length : Nat) : Exception :=
  .typeError s!"ord() expected a character, but string of length {length} found"

/-- The code point of a string of one character, or the value of a single byte. -/
def runOrd (arguments : Arguments) : Program Value := do
  let value ← .ofFailure (arguments.one ord.name)
  match value with
  | .text content => match content.toList with
    | [character] => return .ofNat character.toNat
    | characters => .raise (notCharacter characters.length)
  | .bytes [byte] => return .ofNat byte.toNat
  | .bytes content => .raise (notCharacter content.length)
  | _ =>
    let typeName := (← Program.heap).typeName value
    .raise (.typeError s!"ord() expected string of length 1, but {typeName} found")

/-! ### Attributes -/

/-- The name of an attribute, which must be a string. -/
def attributeName (function : BuiltinFunction) (name : Value) : Program String :=
  match name with
  | .text name => .done name
  | _ => .raise (.attributeNameNotText function.name)

/-- An attribute. A default stands in for a missing one, that is for an `AttributeError` or an
exception below it, and for nothing else. -/
def runGetattr (arguments : Arguments) : Program Value := do
  let (value, name, default) ← .ofFailure (arguments.twoOrThree getattr.name)
  let name ← attributeName getattr name
  match default with
  | none => Attribute.get value name
  | some default =>
    match ← Program.handling (.within .attributeError) (Attribute.get value name) with
    | .ok result => return result
    | .error _ => return default

/-- Whether an attribute exists. -/
def runHasattr (arguments : Arguments) : Program Value := do
  let (value, name) ← .ofFailure (arguments.two hasattr.name)
  let name ← attributeName hasattr name
  match ← Program.handling (.within .attributeError) (Attribute.get value name) with
  | .ok _ => return .bool true
  | .error _ => return .bool false

/-- Stores an attribute. -/
def runSetattr (arguments : Arguments) : Program Value := do
  let (value, name, content) ← .ofFailure (arguments.three setattr.name)
  let name ← attributeName setattr name
  Attribute.set value name content
  return .null

end Metaobject.BuiltinFunction
