import Metaobject.Call
import Metaobject.Proofs.Obedience.Builtin
import Metaobject.Proofs.Obedience.Script

/-!
# What calls do

A call does what the program of its callable does, so what it may have to guard and to report
depends on the callable: a user function runs a script in some frame, `getattr` with a default,
`hasattr` and `next` guard what they read, the construction of a class reports, and `print` writes
(`Policy.CoversCall`). All other calls, of types, classes, methods and instances included, guard
nothing.
-/

set_option autoImplicit false
set_option relaxedAutoImplicit false

namespace Metaobject

/-- A policy that permits what a call guards, reports, writes and ends with. -/
structure Policy.CoversCall (policy : Policy) (callable : Value) (arguments : Arguments) :
    Prop where
  misuse : policy.faults "class body must be called with exactly its namespace"
  function : ∀ address, callable = .function address →
    policy.CoversScripts ∧ ∀ frame, policy.BindsIn frame
  buildClass : callable = .builtin (.function .buildClass) → policy.reports
  print : callable = .builtin (.function .print) → policy.writes
  collect : callable = .builtin (.type .list) ∨ callable = .builtin (.type .tuple) →
    policy.DrainsForeign
  getattr : callable = .builtin (.function .getattr) → ∀ value name default,
    arguments.twoOrThree BuiltinFunction.getattr.name = .ok (value, .text name, some default) →
      policy.guards (.within .attributeError) (Attribute.get value name)
  hasattr : callable = .builtin (.function .hasattr) → ∀ value name,
    arguments.two BuiltinFunction.hasattr.name = .ok (value, .text name) →
      policy.guards (.within .attributeError) (Attribute.get value name)
  next : callable = .builtin (.function .next) → ∀ iterator default,
    arguments.oneOrTwo BuiltinFunction.next.name = .ok (iterator, default) →
      policy.guards (.exactly .stopIteration) (Capability.invoke? iterator "__next__" [] none)

variable {policy : Policy} {arguments : Arguments}

/-! ### Builtins -/

theorem BuiltinFunction.obeys_run {builtin : BuiltinFunction}
    (hcovers : policy.CoversCall (.builtin (.function builtin)) arguments) :
    (builtin.run arguments).Obeys policy := by
  cases builtin with
  | buildClass => exact BuildClass.obeys_run (hcovers.buildClass rfl) hcovers.misuse arguments
  | importModule => exact Import.obeys_run arguments
  | abs => exact obeys_runAbs arguments
  | chr => exact obeys_runChr arguments
  | compile => exact Compile.obeys_run arguments
  | getattr => exact obeys_runGetattr (hcovers.getattr rfl)
  | hasattr => exact obeys_runHasattr (hcovers.hasattr rfl)
  | len => exact obeys_runLen arguments
  | next => exact obeys_runNext (hcovers.next rfl)
  | ord => exact obeys_runOrd arguments
  | pow => exact obeys_runPow arguments
  | print => exact Print.obeys_run (hcovers.print rfl) arguments
  | round => exact obeys_runRound arguments
  | setattr => exact obeys_runSetattr arguments

theorem Builtin.obeys_run {builtin : Builtin}
    (hcovers : policy.CoversCall (.builtin builtin) arguments) :
    (builtin.run arguments).Obeys policy := by
  cases builtin with
  | function builtin => exact builtin.obeys_run hcovers
  | type kind =>
    refine Constructor.obeys_runNative (fun hkind ↦ hcovers.collect ?_) arguments
    obtain rfl | rfl := hkind
    · exact Or.inl rfl
    · exact Or.inr rfl
  | exception cls => exact Constructor.obeys_runException cls arguments

namespace Call

/-! ### Functions and classes -/

theorem obeys_runFunction (hcovers : policy.CoversScripts) (hframes : ∀ frame, policy.BindsIn frame)
    (function : FunctionRecord) (arguments : Arguments) :
    (runFunction function arguments).Obeys policy := by
  refine .bind (Function.obeys_localsFor hcovers.misuse function arguments) fun locals ↦ ?_
  exact .bind (Script.obeys_runCode hcovers (hframes _) _) fun _ ↦ .pure _

theorem obeys_create (cls : Address) (arguments : Arguments) :
    (create cls arguments).Obeys policy := by
  refine .heap_bind fun heap ↦ ?_
  split
  · exact .call _ _
  · split
    · exact ClassCreation.obeys_create _ arguments
    · exact .new trivial

theorem obeys_runInitializer (cls : Address) (created : Value) (arguments : Arguments) :
    (runInitializer cls created arguments).Obeys policy := by
  refine .heap_bind fun heap ↦ ?_
  split
  · refine .bind (.call _ _) fun result ↦ ?_
    split
    · trivial
    · exact .heap_bind fun _ ↦ trivial
  · split <;> trivial

theorem obeys_construct (cls : Address) (arguments : Arguments) :
    (construct cls arguments).Obeys policy := by
  refine .bind (obeys_create cls arguments) fun created ↦ .heap_bind fun heap ↦ ?_
  split
  · exact .bind (obeys_runInitializer cls created arguments) fun _ ↦ .pure _
  · trivial

/-- A call obeys a policy that covers it. -/
theorem obeys_dispatch {callable : Value} (hcovers : policy.CoversCall callable arguments) :
    (dispatch callable arguments).Obeys policy := by
  refine .heap_bind fun heap ↦ ?_
  split
  · exact Builtin.obeys_run hcovers
  · rename_i address
    split
    · obtain ⟨hscripts, hframes⟩ := hcovers.function address rfl
      exact obeys_runFunction hscripts hframes _ arguments
    · trivial
  · split
    · exact .call _ _
    · trivial
  · exact obeys_construct _ arguments
  · split
    · exact .call _ _
    · trivial
  · trivial

end Call

end Metaobject
