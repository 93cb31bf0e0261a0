/-!
# Exception classes

The closed hierarchy of exception classes. Each class but the root has one direct parent
(`parent?`), declared before it, so the chain of ancestors ends at the root (`ancestors`). A class
is a subclass of each of its ancestors, itself included (`isSubclassOf`).
-/

set_option autoImplicit false
set_option relaxedAutoImplicit false

namespace Metaobject

/-- The exception classes, parents before their children. -/
inductive ExceptionClass
  | baseException
  | systemExit
  | keyboardInterrupt
  | generatorExit
  | exception
  | stopIteration
  | arithmeticError
  | floatingPointError
  | overflowError
  | zeroDivisionError
  | assertionError
  | attributeError
  | bufferError
  | eofError
  | importError
  | moduleNotFoundError
  | lookupError
  | indexError
  | keyError
  | memoryError
  | nameError
  | unboundLocalError
  | osError
  | blockingIOError
  | childProcessError
  | connectionError
  | brokenPipeError
  | connectionAbortedError
  | connectionRefusedError
  | connectionResetError
  | fileExistsError
  | fileNotFoundError
  | interruptedError
  | isADirectoryError
  | notADirectoryError
  | permissionError
  | processLookupError
  | timeoutError
  | referenceError
  | runtimeError
  | notImplementedError
  | recursionError
  | syntaxError
  | indentationError
  | tabError
  | systemError
  | typeError
  | valueError
  | unicodeError
  | unicodeDecodeError
  | unicodeEncodeError
  | unicodeTranslateError
  | warning
  | deprecationWarning
  | pendingDeprecationWarning
  | runtimeWarning
  | syntaxWarning
  | userWarning
  | futureWarning
  | importWarning
  | unicodeWarning
  | bytesWarning
  | resourceWarning
  deriving DecidableEq

namespace ExceptionClass

/-- Every exception class, in the order of declaration. -/
def all : List ExceptionClass :=
  [.baseException, .systemExit, .keyboardInterrupt, .generatorExit, .exception, .stopIteration,
   .arithmeticError, .floatingPointError, .overflowError, .zeroDivisionError, .assertionError,
   .attributeError, .bufferError, .eofError, .importError, .moduleNotFoundError, .lookupError,
   .indexError, .keyError, .memoryError, .nameError, .unboundLocalError, .osError,
   .blockingIOError, .childProcessError, .connectionError, .brokenPipeError,
   .connectionAbortedError, .connectionRefusedError, .connectionResetError, .fileExistsError,
   .fileNotFoundError, .interruptedError, .isADirectoryError, .notADirectoryError,
   .permissionError, .processLookupError, .timeoutError, .referenceError, .runtimeError,
   .notImplementedError, .recursionError, .syntaxError, .indentationError, .tabError,
   .systemError, .typeError, .valueError, .unicodeError, .unicodeDecodeError, .unicodeEncodeError,
   .unicodeTranslateError, .warning, .deprecationWarning, .pendingDeprecationWarning,
   .runtimeWarning, .syntaxWarning, .userWarning, .futureWarning, .importWarning, .unicodeWarning,
   .bytesWarning, .resourceWarning]

/-- The name of a class as programs write it. -/
def name : ExceptionClass → String
  | .baseException => "BaseException"
  | .systemExit => "SystemExit"
  | .keyboardInterrupt => "KeyboardInterrupt"
  | .generatorExit => "GeneratorExit"
  | .exception => "Exception"
  | .stopIteration => "StopIteration"
  | .arithmeticError => "ArithmeticError"
  | .floatingPointError => "FloatingPointError"
  | .overflowError => "OverflowError"
  | .zeroDivisionError => "ZeroDivisionError"
  | .assertionError => "AssertionError"
  | .attributeError => "AttributeError"
  | .bufferError => "BufferError"
  | .eofError => "EOFError"
  | .importError => "ImportError"
  | .moduleNotFoundError => "ModuleNotFoundError"
  | .lookupError => "LookupError"
  | .indexError => "IndexError"
  | .keyError => "KeyError"
  | .memoryError => "MemoryError"
  | .nameError => "NameError"
  | .unboundLocalError => "UnboundLocalError"
  | .osError => "OSError"
  | .blockingIOError => "BlockingIOError"
  | .childProcessError => "ChildProcessError"
  | .connectionError => "ConnectionError"
  | .brokenPipeError => "BrokenPipeError"
  | .connectionAbortedError => "ConnectionAbortedError"
  | .connectionRefusedError => "ConnectionRefusedError"
  | .connectionResetError => "ConnectionResetError"
  | .fileExistsError => "FileExistsError"
  | .fileNotFoundError => "FileNotFoundError"
  | .interruptedError => "InterruptedError"
  | .isADirectoryError => "IsADirectoryError"
  | .notADirectoryError => "NotADirectoryError"
  | .permissionError => "PermissionError"
  | .processLookupError => "ProcessLookupError"
  | .timeoutError => "TimeoutError"
  | .referenceError => "ReferenceError"
  | .runtimeError => "RuntimeError"
  | .notImplementedError => "NotImplementedError"
  | .recursionError => "RecursionError"
  | .syntaxError => "SyntaxError"
  | .indentationError => "IndentationError"
  | .tabError => "TabError"
  | .systemError => "SystemError"
  | .typeError => "TypeError"
  | .valueError => "ValueError"
  | .unicodeError => "UnicodeError"
  | .unicodeDecodeError => "UnicodeDecodeError"
  | .unicodeEncodeError => "UnicodeEncodeError"
  | .unicodeTranslateError => "UnicodeTranslateError"
  | .warning => "Warning"
  | .deprecationWarning => "DeprecationWarning"
  | .pendingDeprecationWarning => "PendingDeprecationWarning"
  | .runtimeWarning => "RuntimeWarning"
  | .syntaxWarning => "SyntaxWarning"
  | .userWarning => "UserWarning"
  | .futureWarning => "FutureWarning"
  | .importWarning => "ImportWarning"
  | .unicodeWarning => "UnicodeWarning"
  | .bytesWarning => "BytesWarning"
  | .resourceWarning => "ResourceWarning"

/-- The class with a given name. -/
def ofName? (text : String) : Option ExceptionClass := all.find? fun cls => cls.name == text

/-- The direct base of a class; the root has none. Classes not listed derive from `exception`
directly. -/
def parent? : ExceptionClass → Option ExceptionClass
  | .baseException => none
  | .systemExit | .keyboardInterrupt | .generatorExit | .exception => some .baseException
  | .floatingPointError | .overflowError | .zeroDivisionError => some .arithmeticError
  | .moduleNotFoundError => some .importError
  | .indexError | .keyError => some .lookupError
  | .unboundLocalError => some .nameError
  | .blockingIOError | .childProcessError | .connectionError | .fileExistsError
  | .fileNotFoundError | .interruptedError | .isADirectoryError | .notADirectoryError
  | .permissionError | .processLookupError | .timeoutError => some .osError
  | .brokenPipeError | .connectionAbortedError | .connectionRefusedError
  | .connectionResetError => some .connectionError
  | .notImplementedError | .recursionError => some .runtimeError
  | .indentationError => some .syntaxError
  | .tabError => some .indentationError
  | .unicodeError => some .valueError
  | .unicodeDecodeError | .unicodeEncodeError | .unicodeTranslateError => some .unicodeError
  | .deprecationWarning | .pendingDeprecationWarning | .runtimeWarning | .syntaxWarning
  | .userWarning | .futureWarning | .importWarning | .unicodeWarning | .bytesWarning
  | .resourceWarning => some .warning
  | _ => some .exception

/-- A class and at most `steps` classes above it, nearest first. -/
def ancestorsWithin : Nat → ExceptionClass → List ExceptionClass
  | 0, cls => [cls]
  | steps + 1, cls => match cls.parent? with
    | none => [cls]
    | some parent => cls :: ancestorsWithin steps parent

/-- A class and all classes above it, nearest first. A parent is declared before its children, so
there are no more classes above a class than before it. -/
def ancestors (cls : ExceptionClass) : List ExceptionClass := ancestorsWithin cls.ctorIdx cls

/-- Whether the first class is the second or below it. -/
def isSubclassOf (cls other : ExceptionClass) : Bool := cls.ancestors.contains other

/-- Every class at or below a given one, in the order of declaration. -/
def subclasses (cls : ExceptionClass) : List ExceptionClass :=
  all.filter fun other => other.isSubclassOf cls

/-! ### Laws of the hierarchy -/

/-- A parent is declared before its children. -/
theorem ctorIdx_parent (cls parent : ExceptionClass) (isParent : cls.parent? = some parent) :
    parent.ctorIdx < cls.ctorIdx := by
  cases cls <;> cases isParent <;> decide

/-- The ancestors of a class are the class and the ancestors of its parent. -/
theorem ancestors_eq (cls : ExceptionClass) :
    cls.ancestors = match cls.parent? with
      | none => [cls]
      | some parent => cls :: parent.ancestors := by
  cases cls <;> rfl

end ExceptionClass

end Metaobject
