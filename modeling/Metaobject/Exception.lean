import Metaobject.ExceptionClass
import Metaobject.Text.Quoted

/-!
# Exceptions and failures

An exception is a class with an optional text argument. A failure ends a computation without a
value: a raised exception, which code may handle, or an internal error, which nothing handles
(`Failure`).
-/

set_option autoImplicit false
set_option relaxedAutoImplicit false

namespace Metaobject

/-- An exception: its class and its argument, if it was given one. -/
structure Exception where
  cls : ExceptionClass
  argument : Option String
  deriving DecidableEq

namespace Exception

/-- The message of an exception; empty without an argument. -/
def message (exception : Exception) : String := exception.argument.getD ""

/-- An exception written as the call that creates it. -/
def written (exception : Exception) : String :=
  match exception.argument with
  | none => exception.cls.name ++ "()"
  | some argument => exception.cls.name ++ "(" ++ Text.Quoted.text argument ++ ")"

/-- An exception as a report shows it: the class, and after a colon the message unless it is
empty. -/
def report (exception : Exception) : String :=
  if exception.message.isEmpty then exception.cls.name
  else exception.cls.name ++ ": " ++ exception.message

end Exception

/-- A computation that ended without a value. -/
inductive Failure
  /-- An exception that code may handle. -/
  | raised (exception : Exception)
  /-- A broken assumption of the host; no code handles it. -/
  | internal (message : String)
  deriving DecidableEq

namespace Failure

/-- A failure as a report shows it. -/
def report : Failure → String
  | raised exception => exception.report
  | internal message => "internal error: " ++ message

/-- The class of the raised exception, if there is one. -/
def cls? : Failure → Option ExceptionClass
  | raised exception => some exception.cls
  | internal _ => none

/-- Whether the failure is an exception of exactly the given class. -/
def isExactly (failure : Failure) (cls : ExceptionClass) : Bool := failure.cls? == some cls

/-- Whether the failure is an exception of the given class or of one below it. -/
def isWithin (failure : Failure) (cls : ExceptionClass) : Bool :=
  failure.cls?.any fun own => own.isSubclassOf cls

end Failure

/-- Which exceptions a handler takes. -/
inductive Handler
  /-- The exceptions of a class and of the classes below it. -/
  | within (cls : ExceptionClass)
  /-- The exceptions of one class only. -/
  | exactly (cls : ExceptionClass)
  deriving DecidableEq

/-- Whether a handler takes an exception. -/
def Handler.takes : Handler → Exception → Bool
  | within cls, exception => exception.cls.isSubclassOf cls
  | exactly cls, exception => exception.cls == cls

end Metaobject
