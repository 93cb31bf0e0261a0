import Metaobject.Script.Evaluation

/-!
# Running statements

The program that a statement is (`runStatement`). A statement goes on or leaves its body with a
result (`Outcome`); a body that ends without a result has none. Code is run in a frame
(`runCode`), and a single statement is run for its value (`runStep`).
-/

set_option autoImplicit false
set_option relaxedAutoImplicit false

namespace Metaobject.Script

/-! ### Outcomes and repetition -/

/-- How a statement ended. -/
inductive Outcome
  /-- The body goes on. -/
  | value (value : Value)
  /-- The body is left with a result. -/
  | result (value : Value)

/-- The outcome of a block inside a statement. -/
def Outcome.ofBlock : Option Value → Outcome
  | none => .value .null
  | some found => .result found

/-- Runs a block a number of times, or until it leaves the body. -/
def runRepeatedly (block : Program (Option Value)) : Nat → Program (Option Value)
  | 0 => .done none
  | times + 1 => do
    match ← block with
    | some result => return some result
    | none => runRepeatedly block times

/-- Binds a caught exception to a local variable, if one is named. -/
def bindCaught (frame : Frame) (binding : Option String) (caught : Exception) : Program Unit := do
  match binding with
  | none => return ()
  | some name =>
    let value ← .new (.newException caught) .exception
    Program.effect (.bindName frame.locals name value)

/-- The dict of a scope. -/
def Scope.address (frame : Frame) : Scope → Address
  | .locals => frame.locals
  | .globals => frame.globals

mutual

/-- Runs a statement. -/
def runStatement (frame : Frame) : Statement → Program Outcome
  | .assign scope name content => do
    let value ← evaluate frame content
    Program.effect (.bindName (scope.address frame) name value)
    return .value value
  | .evaluate expression => do return .value (← evaluate frame expression)
  | .result expression => do return .result (← evaluate frame expression)
  | .raise cls message => .raise ⟨cls, message⟩
  | .fault message => .fault message
  | .branch condition yes no => do
    let value ← evaluate frame condition
    if (← Program.heap).isTrue value then return .ofBlock (← runBlock frame yes)
    else return .ofBlock (← runBlock frame no)
  | .loop times body => do return .ofBlock (← runRepeatedly (runBlock frame body) times)
  | .protect body handled binding recovery => do
    match ← Program.handling (.within handled) (runBlock frame body) with
    | .ok result => return .ofBlock result
    | .error caught =>
      bindCaught frame binding caught
      return .ofBlock (← runBlock frame recovery)

/-- Runs statements in order until one leaves the body; gives its result. -/
def runBlock (frame : Frame) : List Statement → Program (Option Value)
  | [] => .done none
  | statement :: rest => do
    match ← runStatement frame statement with
    | .result value => return some value
    | .value _ => runBlock frame rest

end

/-- Runs code in a frame. -/
def runCode (frame : Frame) (code : Address) : Program (Option Value) := do
  runBlock frame (← Program.effect (.enterBody code))

/-- Runs a single statement for its value; a result counts as its value. -/
def runStep (frame : Frame) (statement : Statement) : Program Value := do
  match ← runStatement frame statement with
  | .value value => return value
  | .result value => return value

end Metaobject.Script
