import Metaobject.Exception

/-!
# The wording of exceptions

One function per cause of an exception raised by the runtime itself, from the facts that the message
names to the exception. A message speaks of an argument in the singular exactly when it counts one.
-/

set_option autoImplicit false
set_option relaxedAutoImplicit false

namespace Metaobject.Exception

/-- The ending of a counted noun. -/
def plural (count : Nat) : String := if count = 1 then "" else "s"

/-! ### By class -/

def typeError (message : String) : Exception := ⟨.typeError, some message⟩

def valueError (message : String) : Exception := ⟨.valueError, some message⟩

def overflow (message : String) : Exception := ⟨.overflowError, some message⟩

/-! ### Argument counts and keywords -/

/-- A function with a fixed number of parameters got another number of arguments. -/
def wrongCount (name : String) (expected actual : Nat) : Exception :=
  if expected = 1 then typeError s!"{name}() takes exactly one argument ({actual} given)"
  else typeError s!"{name} expected {expected} arguments, got {actual}"

def tooFew (name : String) (least actual : Nat) : Exception :=
  typeError s!"{name} expected at least {least} argument{plural least}, got {actual}"

def tooMany (name : String) (most actual : Nat) : Exception :=
  typeError s!"{name} expected at most {most} argument{plural most}, got {actual}"

/-- More positional arguments than a descriptor has parameters. -/
def overfull (name : String) (most actual : Nat) : Exception :=
  typeError s!"{name}() takes at most {most} argument{plural most} ({actual} given)"

def noKeywords (name : String) : Exception := typeError s!"{name}() takes no keyword arguments"

def unknownKeyword (name key : String) : Exception :=
  typeError s!"'{key}' is an invalid keyword argument for {name}()"

/-- A parameter given by keyword and by position. -/
def givenTwice (name key : String) (position : Nat) : Exception :=
  typeError s!"argument for {name}() given by name ('{key}') and position ({position})"

def missingArgument (name key : String) (position : Nat) : Exception :=
  typeError s!"{name}() missing required argument '{key}' (pos {position})"

/-! ### Calls of user functions -/

def tooManyPositional (name : String) (parameters actual : Nat) : Exception :=
  let verb := if actual = 1 then "was" else "were"
  typeError
    s!"{name}() takes {parameters} positional argument{plural parameters} but {actual} {verb} given"

def unexpectedKeyword (name key : String) : Exception :=
  typeError s!"{name}() got an unexpected keyword argument '{key}'"

def multipleValues (name key : String) : Exception :=
  typeError s!"{name}() got multiple values for argument '{key}'"

/-- Required parameters that got no argument, in the order of declaration. -/
def missingParameters (name : String) (missing : List String) : Exception :=
  let quoted := ", ".intercalate (missing.map fun parameter => s!"'{parameter}'")
  let count := missing.length
  typeError s!"{name}() missing {count} required positional argument{plural count}: {quoted}"

def noArguments (className : String) : Exception := typeError s!"{className}() takes no arguments"

def initializerResult (typeName : String) : Exception :=
  typeError s!"__init__() should return None, not '{typeName}'"

/-! ### Operations that a type lacks -/

def notInteger (typeName : String) : Exception :=
  typeError s!"'{typeName}' object cannot be interpreted as an integer"

def notCallable (typeName : String) : Exception :=
  typeError s!"'{typeName}' object is not callable"

def notIterable (typeName : String) : Exception :=
  typeError s!"'{typeName}' object is not iterable"

def notIterator (typeName : String) : Exception :=
  typeError s!"'{typeName}' object is not an iterator"

def notMapping (typeName : String) : Exception :=
  typeError s!"'{typeName}' object is not a mapping"

def notInstantiable (typeName : String) : Exception :=
  typeError s!"cannot create '{typeName}' instances"

def noLength (typeName : String) : Exception :=
  typeError s!"object of type '{typeName}' has no len()"

def noAbsolute (typeName : String) : Exception :=
  typeError s!"bad operand type for abs(): '{typeName}'"

def noRounding (typeName : String) : Exception :=
  typeError s!"type {typeName} doesn't define __round__ method"

/-- Operands that no power is defined for. -/
def noPower (typeNames : List String) : Exception :=
  let listed := typeNames.map fun typeName => s!"'{typeName}'"
  let operands := match listed with
    | [base, exponent] => s!"{base} and {exponent}"
    | _ => ", ".intercalate listed
  typeError s!"unsupported operand type(s) for ** or pow(): {operands}"

/-- A conversion to text that gave something else. -/
def notText (method typeName : String) : Exception :=
  typeError s!"{method} returned non-string (type {typeName})"

/-! ### Attributes -/

def missingAttribute (typeName name : String) : Exception :=
  ⟨.attributeError, some s!"'{typeName}' object has no attribute '{name}'"⟩

def missingTypeAttribute (typeName name : String) : Exception :=
  ⟨.attributeError, some s!"type object '{typeName}' has no attribute '{name}'"⟩

def missingModuleAttribute (moduleName name : String) : Exception :=
  ⟨.attributeError, some s!"module '{moduleName}' has no attribute '{name}'"⟩

def immutableType (typeName name : String) : Exception :=
  ⟨.attributeError,
    some s!"cannot set '{name}' attribute of immutable type '{typeName}'"⟩

def attributeNameNotText (function : String) : Exception :=
  typeError s!"{function}(): attribute name must be string"

/-! ### Classes -/

def metaclassConflict : Exception :=
  typeError ("metaclass conflict: the metaclass of a derived class must be a (non-strict) subclass "
    ++ "of the metaclasses of all its bases")

def unacceptableBase (typeName : String) : Exception :=
  typeError s!"type '{typeName}' is not an acceptable base type"

def duplicateBase (className : String) : Exception :=
  typeError s!"duplicate base class {className}"

def noLinearization (baseNames : List String) : Exception :=
  let listed := ", ".intercalate baseNames
  typeError
    s!"Cannot create a consistent method resolution order (MRO) for bases {listed}"

def linearizationTooLong : Exception := typeError "MRO exceeds maximum length"

def typeKeywords : Exception := typeError "type.__init__() takes no keyword arguments"

/-- The class constructor got an argument of the wrong type. -/
def typeArgument (position : Nat) (expected typeName : String) : Exception :=
  typeError s!"type.__new__() argument {position} must be {expected}, not {typeName}"

def basesNotTypes : Exception := typeError "bases must be types"

/-- What a class body's namespace must be. -/
def notNamespace (metaclassName typeName : String) : Exception :=
  typeError s!"{metaclassName}.__prepare__() must return a mapping, not {typeName}"

/-! ### Limits, numbers and names -/

def recursionLimit : Exception := ⟨.recursionError, some "maximum recursion depth exceeded"⟩

def powerTooLarge : Exception := ⟨.memoryError, some "integer power result is too large"⟩

def zeroToNegativePower : Exception :=
  ⟨.zeroDivisionError, some "0.0 cannot be raised to a negative power"⟩

def notNumberToInteger : Exception := valueError "cannot convert float NaN to integer"

def infinityToInteger : Exception := overflow "cannot convert float infinity to integer"

/-- The end of an iteration. -/
def stopIteration : Exception := ⟨.stopIteration, none⟩

def undefinedName (name : String) : Exception :=
  ⟨.nameError, some s!"name '{name}' is not defined"⟩

def noModule (name : String) : Exception :=
  ⟨.moduleNotFoundError, some s!"No module named '{name}'"⟩

end Metaobject.Exception
