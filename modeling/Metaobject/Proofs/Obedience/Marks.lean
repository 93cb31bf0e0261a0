import Metaobject.Script.Syntax

/-!
# Where a script breaks off and where it takes exceptions

The places of a script at which it can end a run with an internal error of its own, which are
statements that do nothing else and bodies that no executor can run, and those at which it takes
exceptions (`Script.Mark`). The marks of a statement are those of all its parts, the bodies of the
functions that it defines included (`Statement.marks`).
-/

set_option autoImplicit false
set_option relaxedAutoImplicit false

namespace Metaobject.Script

/-- A place of a script. -/
inductive Mark
  /-- A statement that ends the run with an internal error. -/
  | fault (message : String)
  /-- A body that no script executor can run. -/
  | foreign
  /-- A statement that takes the exceptions of a class that `body` raises. -/
  | protects (handled : ExceptionClass) (body : List Statement)

/-- Whether a script can end a run with an internal error at a place. -/
def Mark.breaksOff : Mark → Bool
  | .fault _ | .foreign => true
  | .protects _ _ => false

mutual

/-- The marks of an expression. -/
def Expression.marks : Expression → List Mark
  | .literal _ | .variable _ | .builtin _ | .closureCell _ => []
  | .tuple items | .list items => Expression.marksOfAll items
  | .dict pairs => Expression.marksOfPairs pairs
  | .nest _ _ core => core.marks
  | .call callee positional keywords =>
    callee.marks ++ (Expression.marksOfAll positional ++ keywords.marks)
  | .callBuiltin _ positional keywords => Expression.marksOfAll positional ++ keywords.marks
  | .probe _ arguments => Expression.marksOfAll arguments
  | .function _ code defaults closure globals =>
    Expression.marksOfOption globals ++
      (Expression.marksOfAll closure ++ (Expression.marksOfAll defaults ++ code.marks))
  | .moduleObject _ pairs => Expression.marksOfPairs pairs
  | .chain _ _ base => base.marks

/-- The marks of expressions. -/
def Expression.marksOfAll : List Expression → List Mark
  | [] => []
  | expression :: rest => expression.marks ++ Expression.marksOfAll rest

/-- The marks of expressions with keys. -/
def Expression.marksOfPairs : List (String × Expression) → List Mark
  | [] => []
  | (_, expression) :: rest => expression.marks ++ Expression.marksOfPairs rest

/-- The marks of an expression that may be left out. -/
def Expression.marksOfOption : Option Expression → List Mark
  | none => []
  | some expression => expression.marks

/-- The marks of keyword arguments. -/
def Keywords.marks : Keywords → List Mark
  | .absent => []
  | .pairs pairs => Expression.marksOfPairs pairs
  | .dict dict => dict.marks

/-- The marks of the code of a function. -/
def CodeExpression.marks : CodeExpression → List Mark
  | .mk _ _ _ body => body.marks

/-- The marks of a body. -/
def Body.marks : Body → List Mark
  | .script statements => Statement.marksOfAll statements
  | .foreign => [.foreign]

/-- The marks of a statement. -/
def Statement.marks : Statement → List Mark
  | .assign _ _ content => content.marks
  | .evaluate expression | .result expression => expression.marks
  | .raise _ _ => []
  | .fault message => [.fault message]
  | .branch condition yes no =>
    condition.marks ++ (Statement.marksOfAll yes ++ Statement.marksOfAll no)
  | .loop _ body => Statement.marksOfAll body
  | .protect body handled _ recovery =>
    .protects handled body :: (Statement.marksOfAll body ++ Statement.marksOfAll recovery)

/-- The marks of statements. -/
def Statement.marksOfAll : List Statement → List Mark
  | [] => []
  | statement :: rest => statement.marks ++ Statement.marksOfAll rest

end

/-- Whether a statement ends no run with an internal error of its own: it has no statement that does
so and no foreign body, in whatever function. -/
def Statement.NeverBreaksOff (statement : Statement) : Prop :=
  ∀ mark ∈ statement.marks, mark.breaksOff = false

end Metaobject.Script
