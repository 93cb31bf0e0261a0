import Metaobject.Arguments
import Metaobject.World

/-!
# Programs

A program is a tree of steps that a run carries out. It ends with a value, with an exception or with
an internal error, or it asks for something and goes on with the answer. What it asks for is either
an effect, which the world answers at once (`Effect`), or a request, which runs other programs
(`Request`). Exceptions of a part of a program can be handled (`Program.attempt`), internal errors
cannot: nothing of a program follows one.

Sequencing is associative and ending with a value is its unit (`LawfulMonad`).
-/

set_option autoImplicit false
set_option relaxedAutoImplicit false

namespace Metaobject

/-! ### Effects and requests -/

/-- The scopes in which code runs. -/
structure Frame where
  globals : Address
  locals : Address
  closure : List Address

/-- A class to be built. -/
structure ClassDefinition where
  name : String
  metaclass : ClassRef
  bases : List ClassRef
  attributes : Entries Value

/-- What the world answers at once, with the type of the answer. -/
inductive Effect : Type → Type
  /-- The heap as it is now. -/
  | heap : Effect Heap
  /-- The present nesting of calls. -/
  | depth : Effect Nat
  /-- Refuses integer powers of more bits than allowed. -/
  | permitBits (bits : Nat) : Effect Unit
  | newList (items : List Value) : Effect Address
  | newDict (entries : Entries Value) : Effect Address
  | newCell (content : Option Value) : Effect Address
  | newIterator (items : List Value) : Effect Address
  /-- A class with a linearization computed from its bases and with a dict of its own. -/
  | newClass (definition : ClassDefinition) : Effect Address
  /-- An instance with an empty dict of its own. -/
  | newInstance (cls : Address) : Effect Address
  | newFunction (record : FunctionRecord) : Effect Address
  | newMethod (receiver function : Value) : Effect Address
  | newCode (record : CodeRecord) : Effect Address
  /-- A module with a dict of its own that has the name of the module. -/
  | newModule (name : String) (entries : Entries Value) : Effect Address
  | newException (exception : Exception) : Effect Address
  /-- Binds a variable in a scope. -/
  | bindName (scope : Address) (name : String) (content : Value) : Effect Unit
  /-- Stores an attribute on an instance, a class or a module. -/
  | storeAttribute (holder : Address) (name : String) (content : Value) : Effect Unit
  | insertEntry (dict : Address) (key : String) (content : Value) : Effect Unit
  | eraseEntry (dict : Address) (key : String) : Effect Unit
  | appendItem (list : Address) (item : Value) : Effect Unit
  | setCell (cell : Address) (content : Value) : Effect Unit
  /-- Puts a value into an empty cell. -/
  | fillCell (cell : Address) (content : Value) : Effect Unit
  /-- Takes one item from a native iterator. -/
  | takeItem (iterator : Address) : Effect (Option Value)
  /-- Takes all items from a native iterator. -/
  | takeAll (iterator : Address) : Effect (List Value)
  | write (text : String) : Effect Unit
  | flush : Effect Unit
  /-- Reports that the construction of a class has chosen its metaclass. -/
  | reportMetaclass (className metaclass : String) : Effect Unit
  /-- Reports that the construction of a class has built it. -/
  | reportClass (className metaclass : String) : Effect Unit
  | importModule (request : ImportRequest) : Effect Value
  | compileSource (request : CompileRequest) : Effect Value
  /-- Starts to run code: gives its statements. -/
  | enterBody (code : Address) : Effect (List Script.Statement)

/-- What runs other programs, with the type of the answer. -/
inductive Request : Type → Type
  /-- Calls a value. -/
  | call (callable : Value) (arguments : Arguments) : Request Value
  /-- Runs code one level deeper; its result is missing when the body ends without one. -/
  | runCode (frame : Frame) (code : Address) : Request (Option Value)
  /-- Takes items from an iterator of a user class until it is exhausted. -/
  | drain (iterator : Value) : Request (List Value)

/-! ### Programs -/

/-- A program whose value is of type `Result`. -/
inductive Program : Type → Type 1
  | done {Result : Type} (result : Result) : Program Result
  | raise {Result : Type} (exception : Exception) : Program Result
  | fault {Result : Type} (message : String) : Program Result
  | perform {Result Answer : Type} (effect : Effect Answer) (next : Answer → Program Result) :
      Program Result
  | ask {Result Answer : Type} (request : Request Answer) (next : Answer → Program Result) :
      Program Result
  | attempt {Result Answer : Type} (handler : Handler) (body : Program Answer)
      (next : Except Exception Answer → Program Result) : Program Result

namespace Program

/-- Runs a program and then the one that its value gives. -/
def bind {First Second : Type} : Program First → (First → Program Second) → Program Second
  | .done result, continuation => continuation result
  | .raise exception, _ => .raise exception
  | .fault message, _ => .fault message
  | .perform effect next, continuation =>
    .perform effect fun answer => (next answer).bind continuation
  | .ask request next, continuation =>
    .ask request fun answer => (next answer).bind continuation
  | .attempt handler body next, continuation =>
    .attempt handler body fun answer => (next answer).bind continuation

instance : Monad Program where
  pure := .done
  bind := .bind

theorem bind_done {Result : Type} (program : Program Result) : program.bind .done = program := by
  induction program with
  | done | raise | fault => rfl
  | perform effect next ih | ask request next ih => simp only [bind, ih]
  | attempt handler body next _ ih => simp only [bind, ih]

theorem bind_bind {First Second Third : Type} (program : Program First)
    (second : First → Program Second) (third : Second → Program Third) :
    (program.bind second).bind third = program.bind fun result => (second result).bind third := by
  induction program with
  | done | raise | fault => rfl
  | perform effect next ih | ask request next ih => simp only [bind, ih]
  | attempt handler body next _ ih => simp only [bind, ih]

instance : LawfulMonad Program :=
  LawfulMonad.mk' Program bind_done (fun _ _ => rfl) bind_bind

/-! ### Single steps -/

/-- Performs one effect. -/
def effect {Answer : Type} (effect : Effect Answer) : Program Answer := .perform effect .done

/-- Makes one request. -/
def request {Answer : Type} (request : Request Answer) : Program Answer := .ask request .done

/-- The heap as it is now. -/
def heap : Program Heap := effect .heap

/-- Calls a value. -/
def call (callable : Value) (arguments : Arguments) : Program Value :=
  request (.call callable arguments)

/-- The value of a program, or the exception that the handler took. -/
def handling {Result : Type} (handler : Handler) (program : Program Result) :
    Program (Except Exception Result) :=
  .attempt handler program .done

/-- A result that may be an exception. -/
def ofExcept {Result : Type} : Except Exception Result → Program Result
  | .ok result => .done result
  | .error exception => .raise exception

/-- A result that may be a failure. -/
def ofFailure {Result : Type} : Except Failure Result → Program Result
  | .ok result => .done result
  | .error (.raised exception) => .raise exception
  | .error (.internal message) => .fault message

/-- A new object as a value. -/
def new (effect : Effect Address) (form : Address → Value) : Program Value :=
  .perform effect fun address => .done (form address)

end Program

end Metaobject
