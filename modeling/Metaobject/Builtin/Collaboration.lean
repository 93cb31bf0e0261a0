import Metaobject.Arguments.Descriptor
import Metaobject.Program

/-!
# Compiling and importing

The builtins `compile` and `__import__` check their arguments and hand a request to the compiler or
the importer of the run, whose answer is theirs.
-/

set_option autoImplicit false
set_option relaxedAutoImplicit false

namespace Metaobject

/-! ### Compiling -/

namespace Compile

/-- An argument bound as an integer. -/
def integerArgument (value : Value) : Except Failure Int :=
  match value.word? with
  | some integer => .ok integer
  | none => .error (.internal "compile() integer argument not bound as int")

/-- The request that bound arguments stand for. The optimization level is only checked. -/
def request : List Value → Except Failure CompileRequest
  | [source, filename, mode, flags, ignoresContext, optimization] => do
    let optimization ← integerArgument optimization
    if ¬ (-1 ≤ optimization ∧ optimization ≤ 2) then
      throw (.raised (.valueError "compile(): invalid optimize value"))
    match mode.text?.bind CompileMode.ofName? with
    | none =>
      .error (.raised (.valueError "compile() mode must be 'exec', 'eval' or 'single'"))
    | some mode => match source with
      | .text source => match filename with
        | .text filename => do
          let flags ← integerArgument flags
          let ignoresContext ← integerArgument ignoresContext
          .ok ⟨source, filename, mode, flags, ignoresContext ≠ 0⟩
        | _ => .error (.internal "compile() filename not bound as str")
      | _ =>
        .error (.raised (.typeError "compile() arg 1 must be a string, bytes or AST object"))
  | _ => .error Arguments.miscounted

/-- Compiles source. -/
def run (arguments : Arguments) : Program Value := do
  let heap ← Program.heap
  let bound ← .ofFailure (arguments.bind heap "Oss|iii:compile"
    (some ["source", "filename", "mode", "flags", "dont_inherit", "optimize"])
    [.null, .null, .null, .ofInt 0, .ofInt 0, .ofInt (-1)])
  Program.effect (.compileSource (← .ofFailure (request bound)))

end Compile

/-! ### Importing -/

namespace Import

/-- The greatest level of a relative import. -/
def maxLevel : Int := 0xffffffff

/-- A scope argument: a dict as it is, or a new one for `null`. -/
def scope (which : String) (value : Value) : Program Address := do
  match value with
  | .null => Program.effect (.newDict .empty)
  | .dict address => return address
  | _ =>
    let typeName := (← Program.heap).typeName value
    .raise (.typeError s!"__import__() {which} must be a dict, not {typeName}")

/-- The strings of a sequence of names. -/
def namesOf (heap : Heap) (items : List Value) : Except Exception (List String) :=
  items.mapM fun item => match item with
    | .text name => .ok name
    | other => .error (.typeError s!"Item in from list must be str, not {heap.typeName other}")

/-- The names to import from the module. -/
def names (value : Value) : Program (List String) := do
  let heap ← Program.heap
  match value with
  | .null => return []
  | .tuple items => .ofExcept (namesOf heap items)
  | .list address => .ofExcept (namesOf heap (heap.items address))
  | _ =>
    let typeName := heap.typeName value
    .raise (.typeError s!"__import__() fromlist must be a tuple or list, not {typeName}")

/-- Checks the name and the level of a module. -/
def target (name level : Value) : Except Failure (String × Nat) :=
  match name with
  | .text name =>
    let level := level.word?.getD 0
    if ¬ (0 ≤ level ∧ level ≤ maxLevel) then
      .error (.raised (.valueError "level must be >= 0"))
    else if name.isEmpty ∧ level = 0 then .error (.raised (.valueError "Empty module name"))
    else .ok (name, level.toNat)
  | _ => .error (.internal "__import__() name not bound as str")

/-- Imports a module. -/
def run (arguments : Arguments) : Program Value := do
  let heap ← Program.heap
  match ← .ofFailure (arguments.bind heap "U|OOOi:__import__"
    (some ["name", "globals", "locals", "fromlist", "level"])
    [.null, .null, .null, .tuple [], .ofInt 0]) with
  | [name, globals, locals, fromList, level] =>
    let (name, level) ← .ofFailure (target name level)
    let globals ← scope "globals" globals
    let locals ← scope "locals" locals
    let names ← names fromList
    Program.effect (.importModule ⟨name, globals, locals, names, level⟩)
  | _ => .ofFailure (.error Arguments.miscounted)

end Import

end Metaobject
