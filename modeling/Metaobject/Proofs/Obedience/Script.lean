import Metaobject.Proofs.Obedience.Operation
import Metaobject.Script.Execution

/-!
# What scripts do

A script guards and breaks off at its own marks, with the bodies of its `protect` statements and
with internal errors, and it binds variables in the scopes of its frame. Besides, a probe guards a
step of an iterator, edits a dict, and ends with an internal error when a class body is called by
it; an ill-formed script is refused with one (`Script.refusals`, `Policy.CoversScripts`). The rest
of it obeys every policy. The proofs follow the recursion of the evaluator.
-/

set_option autoImplicit false
set_option relaxedAutoImplicit false

namespace Metaobject

/-- The internal errors that refuse an ill-formed script: a value of another kind stands where a
dict, a cell or the argument of a probe is due. -/
def Script.refusals : List String :=
  ["a scope or keyword argument is not a dict", "a closure holds something that is not a cell",
   "a closure has no such cell", "a probe does not fit its arguments"]

/-- A policy that permits what scripts guard and edit and the internal errors with which they
end. -/
structure Policy.CoversScripts (policy : Policy) : Prop where
  refusals : ∀ message ∈ Script.refusals, policy.faults message
  misuse : policy.faults "class body must be called with exactly its namespace"
  drains : policy.DrainsForeign
  runs : policy.runs
  edits : policy.edits
  probe : ∀ iterator, policy.guards (.within .baseException) (Operation.advance iterator)
  next : ∀ iterator, policy.guards (.exactly .stopIteration)
    (Capability.invoke? iterator "__next__" [] none)

namespace Script

variable {policy : Policy}

/-! ### Pieces -/

theorem obeys_variableValue (frame : Frame) (name : String) :
    (variableValue frame name).Obeys policy := by
  refine .heap_bind fun heap ↦ ?_
  split
  · trivial
  · split <;> trivial

theorem obeys_builtinValue (name : String) : (builtinValue name).Obeys policy := by
  unfold builtinValue
  split <;> trivial

theorem obeys_newDict (pairs : List (String × Value)) : (newDict pairs).Obeys policy :=
  .new trivial

theorem obeys_wrapOnce (content : Value) (wrapping : Wrapping) :
    (wrapOnce content wrapping).Obeys policy := by
  cases wrapping with
  | list => exact .new trivial
  | tuple => trivial
  | dict => exact obeys_newDict _

theorem obeys_wrap (wrapping : Wrapping) (times : Nat) (content : Value) :
    (wrap wrapping times content).Obeys policy := by
  induction times generalizing content with
  | zero => trivial
  | succ times ih => exact .bind (obeys_wrapOnce content wrapping) ih

theorem obeys_callWith (callable : Value) (positional : List Value) (keywords : Option Address) :
    (callWith callable positional keywords).Obeys policy :=
  .heap_bind fun _ ↦ .call callable _

theorem obeys_chainClasses (stem : String) (index count : Nat) (base : Value) :
    (chainClasses stem index count base).Obeys policy := by
  induction count generalizing index base with
  | zero => trivial
  | succ count ih =>
    refine .bind (obeys_newDict []) fun attributes ↦ ?_
    exact .bind (obeys_callWith _ _ none) fun cls ↦ ih (index + 1) cls

/-- New code has the marks of its expression. -/
theorem obeys_newCode {name : String} {code : CodeExpression} (hmarks : policy.Permits code.marks) :
    (newCode name code).Obeys policy := by
  cases code with
  | mk filename parameters isClassBody body =>
    rw [CodeExpression.marks] at hmarks
    exact .effect hmarks

section

variable (hcovers : policy.CoversScripts)

include hcovers

theorem obeys_dictAddress (value : Value) : (dictAddress value).Obeys policy := by
  unfold dictAddress
  split
  · trivial
  · exact hcovers.refusals _ (by simp [refusals])

theorem obeys_closureAddresses (values : List Value) : (closureAddresses values).Obeys policy := by
  unfold closureAddresses
  split
  · trivial
  · exact hcovers.refusals _ (by simp [refusals])

/-! ### Probes -/

theorem obeys_unfit {Result : Type} : (unfit : Program Result).Obeys policy :=
  hcovers.refusals _ (by simp [refusals])

theorem obeys_fitting {Result : Type} (found : Option Result) (use : Result → Value) :
    (fitting found use).Obeys policy := by
  cases found with
  | some result => trivial
  | none => exact obeys_unfit hcovers

theorem ValueProbe.obeys_run (probe : ValueProbe) (arguments : List Value) :
    (probe.run arguments).Obeys policy := by
  refine .heap_bind fun heap ↦ ?_
  split
  all_goals first | trivial | exact obeys_unfit hcovers

theorem obeys_stepValue (iterator : Value) : (stepValue iterator).Obeys policy := by
  refine .handling_bind (hcovers.probe iterator) (Operation.obeys_advance (hcovers.next iterator))
    fun outcome ↦ ?_
  split
  · trivial
  · trivial
  · exact .bind (.new trivial) fun _ ↦ .pure _
  · exact .bind (.new trivial) fun _ ↦ .pure _

theorem RuntimeProbe.obeys_run (probe : RuntimeProbe) (arguments : List Value) :
    (probe.run arguments).Obeys policy := by
  unfold run
  split
  · exact .bind (Operation.obeys_length _) fun _ ↦ .pure _
  · exact Operation.obeys_absolute _
  · exact Operation.obeys_power _ _ _
  · exact Operation.obeys_power _ _ _
  · exact Operation.obeys_round _ _
  · exact Operation.obeys_iterate _
  · exact .bind (Operation.obeys_collect hcovers.drains _) fun _ ↦ .new trivial
  · exact .bind (Operation.obeys_textOf _) fun _ ↦ .pure _
  · exact Attribute.obeys_get _ _
  · exact .bind (Attribute.obeys_set _ _ _) fun _ ↦ .pure _
  · exact .effect_bind trivial fun _ _ ↦ .pure _
  · exact obeys_stepValue hcovers _
  · split
    · exact .bind (.request trivial) fun _ ↦ .pure _
    · exact obeys_unfit hcovers
  · exact obeys_unfit hcovers

theorem ClassProbe.obeys_run (probe : ClassProbe) (arguments : List Value) :
    (probe.run arguments).Obeys policy := by
  refine .heap_bind fun heap ↦ ?_
  split
  all_goals first | trivial | exact obeys_unfit hcovers | exact obeys_fitting hcovers _ _ | skip
  split
  · exact .ofExcept _
  · exact obeys_unfit hcovers

theorem DictProbe.obeys_run (probe : DictProbe) (arguments : List Value) :
    (probe.run arguments).Obeys policy := by
  refine .heap_bind fun heap ↦ ?_
  split
  all_goals first
    | trivial
    | exact obeys_unfit hcovers
    | exact .new trivial
    | exact .effect_bind hcovers.edits fun _ _ ↦ .pure _

theorem obeys_exceptionOf (cls : Value) (argument : Option String) :
    (exceptionOf cls argument).Obeys policy := by
  unfold exceptionOf
  split
  · exact .new trivial
  · exact obeys_unfit hcovers

theorem obeys_localScope (heap : Heap) (function : Address) (arguments : Arguments) :
    (localScope heap function arguments).Obeys policy := by
  unfold localScope
  split
  · exact .bind (Function.obeys_localsFor hcovers.misuse _ arguments) fun _ ↦ .pure _
  · exact obeys_unfit hcovers

theorem ObjectProbe.obeys_run (probe : ObjectProbe) (arguments : List Value) :
    (probe.run arguments).Obeys policy := by
  refine .heap_bind fun heap ↦ ?_
  split
  all_goals first
    | trivial
    | exact obeys_unfit hcovers
    | exact obeys_fitting hcovers _ _
    | exact .new trivial
    | exact .effect_bind trivial fun _ _ ↦ .pure _
    | exact obeys_localScope hcovers heap _ _
    | exact obeys_exceptionOf hcovers _ _

theorem Probe.obeys_run (probe : Probe) (arguments : List Value) :
    (probe.run arguments).Obeys policy := by
  cases probe with
  | value probe => exact probe.obeys_run hcovers arguments
  | runtime probe => exact probe.obeys_run hcovers arguments
  | cls probe => exact probe.obeys_run hcovers arguments
  | dict probe => exact probe.obeys_run hcovers arguments
  | object probe => exact probe.obeys_run hcovers arguments

end

/-! ### Expressions -/

mutual

theorem obeys_evaluate (hcovers : policy.CoversScripts) (frame : Frame) (expression : Expression)
    (hmarks : policy.Permits expression.marks) : (evaluate frame expression).Obeys policy := by
  match expression with
  | .literal literal => trivial
  | .variable name => exact obeys_variableValue frame name
  | .builtin name => exact obeys_builtinValue name
  | .tuple items =>
    rw [Expression.marks] at hmarks
    exact .bind (obeys_evaluateAll hcovers frame items hmarks) fun _ ↦ .pure _
  | .list items =>
    rw [Expression.marks] at hmarks
    exact .bind (obeys_evaluateAll hcovers frame items hmarks) fun _ ↦ .new trivial
  | .dict pairs =>
    rw [Expression.marks] at hmarks
    exact .bind (obeys_evaluatePairs hcovers frame pairs hmarks) fun _ ↦ obeys_newDict _
  | .nest times wrapping core =>
    rw [Expression.marks] at hmarks
    exact .bind (obeys_evaluate hcovers frame core hmarks) fun _ ↦ obeys_wrap wrapping times _
  | .closureCell index =>
    unfold evaluate
    split
    · trivial
    · exact hcovers.refusals _ (by simp [refusals])
  | .call callee positional keywords =>
    rw [Expression.marks, Policy.permits_append, Policy.permits_append] at hmarks
    obtain ⟨hcallee, hpositional, hkeywords⟩ := hmarks
    refine .bind (obeys_evaluate hcovers frame callee hcallee) fun callable ↦ ?_
    refine .bind (obeys_evaluateAll hcovers frame positional hpositional) fun arguments ↦ ?_
    exact .bind (obeys_evaluateKeywords hcovers frame keywords hkeywords)
      fun _ ↦ obeys_callWith _ _ _
  | .callBuiltin name positional keywords =>
    rw [Expression.marks, Policy.permits_append] at hmarks
    refine .bind (obeys_evaluateAll hcovers frame positional hmarks.1) fun arguments ↦ ?_
    refine .bind (obeys_evaluateKeywords hcovers frame keywords hmarks.2) fun address ↦ ?_
    exact .bind (obeys_builtinValue name) fun _ ↦ obeys_callWith _ _ _
  | .probe probe arguments =>
    rw [Expression.marks] at hmarks
    exact .bind (obeys_evaluateAll hcovers frame arguments hmarks)
      fun _ ↦ probe.obeys_run hcovers _
  | .function name code defaults closure globals =>
    rw [Expression.marks, Policy.permits_append, Policy.permits_append, Policy.permits_append]
      at hmarks
    obtain ⟨hglobals, hclosure, hdefaults, hcode⟩ := hmarks
    refine .bind (obeys_evaluateGlobals hcovers frame globals hglobals) fun globals ↦ ?_
    refine .bind (obeys_evaluateAll hcovers frame closure hclosure) fun cells ↦ ?_
    refine .bind (obeys_closureAddresses hcovers cells) fun addresses ↦ ?_
    refine .bind (obeys_evaluateAll hcovers frame defaults hdefaults) fun values ↦ ?_
    exact .bind (obeys_newCode hcode) fun _ ↦ .new trivial
  | .moduleObject name pairs =>
    rw [Expression.marks] at hmarks
    exact .bind (obeys_evaluatePairs hcovers frame pairs hmarks) fun _ ↦ .new trivial
  | .chain count stem base =>
    rw [Expression.marks] at hmarks
    exact .bind (obeys_evaluate hcovers frame base hmarks)
      fun _ ↦ obeys_chainClasses stem 0 count _

theorem obeys_evaluateAll (hcovers : policy.CoversScripts) (frame : Frame)
    (expressions : List Expression) (hmarks : policy.Permits (Expression.marksOfAll expressions)) :
    (evaluateAll frame expressions).Obeys policy := by
  cases expressions with
  | nil => trivial
  | cons expression rest =>
    rw [Expression.marksOfAll, Policy.permits_append] at hmarks
    refine .bind (obeys_evaluate hcovers frame expression hmarks.1) fun value ↦ ?_
    exact .bind (obeys_evaluateAll hcovers frame rest hmarks.2) fun _ ↦ .pure _

theorem obeys_evaluatePairs (hcovers : policy.CoversScripts) (frame : Frame)
    (pairs : List (String × Expression)) (hmarks : policy.Permits (Expression.marksOfPairs pairs)) :
    (evaluatePairs frame pairs).Obeys policy := by
  cases pairs with
  | nil => trivial
  | cons pair rest =>
    obtain ⟨key, expression⟩ := pair
    rw [Expression.marksOfPairs, Policy.permits_append] at hmarks
    refine .bind (obeys_evaluate hcovers frame expression hmarks.1) fun value ↦ ?_
    exact .bind (obeys_evaluatePairs hcovers frame rest hmarks.2) fun _ ↦ .pure _

theorem obeys_evaluateKeywords (hcovers : policy.CoversScripts) (frame : Frame)
    (keywords : Keywords) (hmarks : policy.Permits keywords.marks) :
    (evaluateKeywords frame keywords).Obeys policy := by
  cases keywords with
  | absent => trivial
  | pairs pairs =>
    rw [Keywords.marks] at hmarks
    refine .bind (obeys_evaluatePairs hcovers frame pairs hmarks) fun values ↦ ?_
    exact .effect_bind trivial fun _ _ ↦ .pure _
  | dict dict =>
    rw [Keywords.marks] at hmarks
    refine .bind (obeys_evaluate hcovers frame dict hmarks) fun value ↦ ?_
    exact .bind (obeys_dictAddress hcovers value) fun _ ↦ .pure _

theorem obeys_evaluateGlobals (hcovers : policy.CoversScripts) (frame : Frame)
    (globals : Option Expression) (hmarks : policy.Permits (Expression.marksOfOption globals)) :
    (evaluateGlobals frame globals).Obeys policy := by
  cases globals with
  | none => trivial
  | some globals =>
    rw [Expression.marksOfOption] at hmarks
    exact .bind (obeys_evaluate hcovers frame globals hmarks)
      fun value ↦ obeys_dictAddress hcovers value

end

/-! ### Statements -/

theorem obeys_runRepeatedly {block : Program (Option Value)} (hblock : block.Obeys policy)
    (times : Nat) : (runRepeatedly block times).Obeys policy := by
  induction times with
  | zero => trivial
  | succ times ih =>
    refine .bind hblock fun result ↦ ?_
    cases result with
    | some result => trivial
    | none => exact ih

theorem obeys_bindCaught {frame : Frame} (hframe : policy.BindsIn frame) (binding : Option String)
    (caught : Exception) : (bindCaught frame binding caught).Obeys policy := by
  unfold bindCaught
  split
  · trivial
  · exact .bind (.new trivial) fun _ ↦ .effect hframe.1

theorem binds_scope {frame : Frame} (hframe : policy.BindsIn frame) (scope : Scope) :
    policy.binds (scope.address frame) := by
  cases scope with
  | locals => exact hframe.1
  | globals => exact hframe.2

mutual

theorem obeys_runStatement (hcovers : policy.CoversScripts) {frame : Frame}
    (hframe : policy.BindsIn frame) (statement : Statement)
    (hmarks : policy.Permits statement.marks) : (runStatement frame statement).Obeys policy := by
  cases statement with
  | assign scope name content =>
    rw [Statement.marks] at hmarks
    refine .bind (obeys_evaluate hcovers frame content hmarks) fun value ↦ ?_
    exact .effect_bind (binds_scope hframe scope) fun _ _ ↦ .pure _
  | evaluate expression =>
    rw [Statement.marks] at hmarks
    exact .bind (obeys_evaluate hcovers frame expression hmarks) fun _ ↦ .pure _
  | result expression =>
    rw [Statement.marks] at hmarks
    exact .bind (obeys_evaluate hcovers frame expression hmarks) fun _ ↦ .pure _
  | raise => trivial
  | fault message =>
    rw [Statement.marks] at hmarks
    exact policy.faults_of_mark message (hmarks _ (List.mem_singleton_self _))
  | branch condition yes no =>
    rw [Statement.marks, Policy.permits_append, Policy.permits_append] at hmarks
    obtain ⟨hcondition, hyes, hno⟩ := hmarks
    refine .bind (obeys_evaluate hcovers frame condition hcondition) fun value ↦ ?_
    refine .heap_bind fun heap ↦ ?_
    split
    · exact .bind (obeys_runBlock hcovers hframe yes hyes) fun _ ↦ .pure _
    · exact .bind (obeys_runBlock hcovers hframe no hno) fun _ ↦ .pure _
  | loop times body =>
    rw [Statement.marks] at hmarks
    exact .bind (obeys_runRepeatedly (obeys_runBlock hcovers hframe body hmarks) times)
      fun _ ↦ .pure _
  | protect body handled binding recovery =>
    rw [Statement.marks, Policy.permits_cons, Policy.permits_append] at hmarks
    obtain ⟨hmark, hbody, hrecovery⟩ := hmarks
    refine .handling_bind (policy.guards_of_mark handled body hmark frame)
      (obeys_runBlock hcovers hframe body hbody) fun outcome ↦ ?_
    cases outcome with
    | ok result => trivial
    | error caught =>
      refine .bind (obeys_bindCaught hframe binding caught) fun _ ↦ ?_
      exact .bind (obeys_runBlock hcovers hframe recovery hrecovery) fun _ ↦ .pure _

theorem obeys_runBlock (hcovers : policy.CoversScripts) {frame : Frame}
    (hframe : policy.BindsIn frame) (statements : List Statement)
    (hmarks : policy.Permits (Statement.marksOfAll statements)) :
    (runBlock frame statements).Obeys policy := by
  cases statements with
  | nil => trivial
  | cons statement rest =>
    rw [Statement.marksOfAll, Policy.permits_append] at hmarks
    refine .bind (obeys_runStatement hcovers hframe statement hmarks.1) fun outcome ↦ ?_
    cases outcome with
    | result value => trivial
    | value value => exact obeys_runBlock hcovers hframe rest hmarks.2

end

/-- The running of code obeys a policy that covers scripts: the statements that it is answered have
permitted marks. -/
theorem obeys_runCode (hcovers : policy.CoversScripts) {frame : Frame}
    (hframe : policy.BindsIn frame) (code : Address) : (runCode frame code).Obeys policy :=
  .effect_bind hcovers.runs fun statements hstatements ↦
    obeys_runBlock hcovers hframe statements hstatements

theorem obeys_runStep (hcovers : policy.CoversScripts) {frame : Frame}
    (hframe : policy.BindsIn frame) {statement : Statement}
    (hmarks : policy.Permits statement.marks) : (runStep frame statement).Obeys policy := by
  refine .bind (obeys_runStatement hcovers hframe statement hmarks) fun outcome ↦ ?_
  cases outcome <;> trivial

end Script

end Metaobject
