import Metaobject.Program

/-!
# Binding the parameters of user functions

The local variables of a call of a user function. Positional arguments fill the parameters from the
left, keyword arguments fill parameters by name, and the last parameters fall back to the defaults
of the function (`bindParameters`). A class body has no parameters: it is called with its namespace
alone, which is its local scope itself (`Function.localsFor`).
-/

set_option autoImplicit false
set_option relaxedAutoImplicit false

namespace Metaobject

namespace Arguments

/-- Binds keyword arguments in order to parameters that no positional argument has filled. -/
def bindByName (name : String) (parameters : List String) (filled : Nat)
    (bound : Entries Value) : List (String × Value) → Except Exception (Entries Value)
  | [] => .ok bound
  | (key, value) :: rest => match parameters.findIdx? (· = key) with
    | none => .error (.unexpectedKeyword name key)
    | some index =>
      if index < filled then .error (.multipleValues name key)
      else bindByName name parameters filled (bound.insert key value) rest

/-- The default of the parameter `index` of `count`: the defaults belong to the last parameters. -/
def defaultFor (defaults : List Value) (count index : Nat) : Option Value :=
  let first := count - defaults.length
  if index < first then none else defaults[index - first]?

/-- Binds the parameters from `index` on that are still unbound to their defaults, and collects
those that have none. -/
def bindDefaults (defaults : List Value) (count index : Nat) (bound : Entries Value) :
    List String → Entries Value × List String
  | [] => (bound, [])
  | parameter :: rest =>
    if bound.contains parameter then bindDefaults defaults count (index + 1) bound rest
    else match defaultFor defaults count index with
      | some value => bindDefaults defaults count (index + 1) (bound.insert parameter value) rest
      | none =>
        let (bound, missing) := bindDefaults defaults count (index + 1) bound rest
        (bound, parameter :: missing)

/-- Binds the parameters of a function called `name`. -/
def bindParameters (name : String) (parameters : List String) (defaults positional : List Value)
    (keywords : List (String × Value)) : Except Exception (Entries Value) := do
  if parameters.length < positional.length then
    throw (.tooManyPositional name parameters.length positional.length)
  let byPosition := Entries.ofList (parameters.zip positional)
  let byName ← bindByName name parameters positional.length byPosition keywords
  match bindDefaults defaults parameters.length 0 byName parameters with
  | (bound, []) => .ok bound
  | (_, missing) => .error (.missingParameters name missing)

end Arguments

namespace Function

/-- The failure of a class body that was called like a function. -/
def bodyMisused : Program Address :=
  .fault "class body must be called with exactly its namespace"

/-- The local scope of a call: for a class body the namespace itself, and otherwise a new dict. -/
def localsFor (function : FunctionRecord) (arguments : Arguments) : Program Address := do
  let heap ← Program.heap
  match heap.code? function.code with
  | none => bodyMisused
  | some code =>
    if code.isClassBody then
      match arguments.positional, arguments.keywords with
      | [.dict namespaceDict], none => return namespaceDict
      | _, _ => bodyMisused
    else
      let bound ← .ofExcept (Arguments.bindParameters function.name code.parameters
        function.defaults arguments.positional (arguments.keywordList heap))
      Program.effect (.newDict bound)

end Function

end Metaobject
