import Metaobject.Builtin.Basic
import Metaobject.Builtin.BuildClass
import Metaobject.Builtin.Collaboration
import Metaobject.Builtin.Constructor
import Metaobject.Builtin.Print
import Metaobject.Proofs.Obedience.Operation

/-!
# What builtins do

Builtins end with internal errors of their own only where the construction of a class calls a class
body: their binders never fail (`Arguments.regular_bind`), and what these bind is what the builtins
rely on (`Compile.regular_request`, `Import.regular_target`). Only `getattr` with a default,
`hasattr` and `next` guard something, only the construction of a class reports, and only `print`
writes.
-/

set_option autoImplicit false
set_option relaxedAutoImplicit false

namespace Metaobject

variable {policy : Policy}

namespace BuiltinFunction

/-! ### Numbers, lengths and characters -/

theorem obeys_runAbs (arguments : Arguments) : (runAbs arguments).Obeys policy :=
  .ofFailure_bind Arguments.regular_one fun value _ ↦ Operation.obeys_absolute value

theorem obeys_runPow (arguments : Arguments) : (runPow arguments).Obeys policy := by
  refine .ofExcept_bind fun values hvalues ↦ ?_
  have hlength := Arguments.length_of_withDefaults hvalues
  obtain ⟨base, exponent, modulus, rfl⟩ := List.length_eq_three.mp hlength
  split
  · exact Operation.obeys_power _ _ _
  · exact Operation.obeys_power _ _ _
  · rename_i hother
    exact absurd rfl (hother base exponent modulus)

theorem obeys_runRound (arguments : Arguments) : (runRound arguments).Obeys policy := by
  refine .ofExcept_bind fun values hvalues ↦ ?_
  have hlength := Arguments.length_of_withDefaults hvalues
  obtain ⟨number, digits, rfl⟩ := List.length_eq_two.mp hlength
  exact Operation.obeys_round number digits

theorem obeys_runLen (arguments : Arguments) : (runLen arguments).Obeys policy := by
  refine .ofFailure_bind Arguments.regular_one fun value _ ↦ ?_
  exact .bind (Operation.obeys_length value) fun _ ↦ .pure _

theorem obeys_runNext {arguments : Arguments}
    (hguards : ∀ iterator default, arguments.oneOrTwo next.name = .ok (iterator, default) →
      policy.guards (.exactly .stopIteration) (Capability.invoke? iterator "__next__" [] none)) :
    (runNext arguments).Obeys policy := by
  refine .ofFailure_bind Arguments.regular_oneOrTwo fun bound hbound ↦ ?_
  obtain ⟨iterator, default⟩ := bound
  refine .bind (Operation.obeys_advance (hguards iterator default hbound)) fun step ↦ ?_
  split <;> trivial

theorem read_chr : Descriptor.read "O:chr" = .ok ⟨"chr", [.any], 1⟩ := rfl

theorem obeys_runChr (arguments : Arguments) : (runChr arguments).Obeys policy := by
  refine .heap_bind fun heap ↦ .ofFailure_bind (Arguments.regular_bind read_chr rfl)
    fun values hvalues ↦ ?_
  have hfits := Arguments.fits_of_bindTo rfl (fun place kind default hkind _ hplace ↦ ?_)
    (Arguments.bindTo_of_bind read_chr rfl hvalues)
  · obtain ⟨value, rfl⟩ := List.length_eq_one_iff.mp hfits.length_eq.symm
    dsimp only
    split
    · split <;> trivial
    · trivial
  · rw [List.getElem?_eq_none hplace] at hkind
    cases hkind

theorem obeys_runOrd (arguments : Arguments) : (runOrd arguments).Obeys policy := by
  refine .ofFailure_bind Arguments.regular_one fun value _ ↦ ?_
  split
  · split <;> trivial
  · trivial
  · trivial
  · exact .heap_bind fun _ ↦ trivial

/-! ### Attributes -/

theorem obeys_attributeName (function : BuiltinFunction) (name : Value) :
    (attributeName function name).Obeys policy := by
  unfold attributeName
  split <;> trivial

/-- Only `getattr` with a default guards the reading of the attribute. -/
theorem obeys_runGetattr {arguments : Arguments}
    (hguards : ∀ value name default,
      arguments.twoOrThree getattr.name = .ok (value, .text name, some default) →
        policy.guards (.within .attributeError) (Attribute.get value name)) :
    (runGetattr arguments).Obeys policy := by
  refine .ofFailure_bind Arguments.regular_twoOrThree fun bound hbound ↦ ?_
  obtain ⟨value, name, default⟩ := bound
  cases name with
  | text name =>
    cases default with
    | none => exact Attribute.obeys_get value name
    | some default =>
      refine .handling_bind (hguards value name default hbound) (Attribute.obeys_get value name)
        fun outcome ↦ ?_
      cases outcome <;> trivial
  | _ => trivial

theorem obeys_runHasattr {arguments : Arguments}
    (hguards : ∀ value name, arguments.two hasattr.name = .ok (value, .text name) →
      policy.guards (.within .attributeError) (Attribute.get value name)) :
    (runHasattr arguments).Obeys policy := by
  refine .ofFailure_bind Arguments.regular_two fun bound hbound ↦ ?_
  obtain ⟨value, name⟩ := bound
  cases name with
  | text name =>
    refine .handling_bind (hguards value name hbound) (Attribute.obeys_get value name)
      fun outcome ↦ ?_
    cases outcome <;> trivial
  | _ => trivial

theorem obeys_runSetattr (arguments : Arguments) : (runSetattr arguments).Obeys policy := by
  refine .ofFailure_bind Arguments.regular_three fun bound _ ↦ ?_
  obtain ⟨value, name, content⟩ := bound
  refine .bind (obeys_attributeName setattr name) fun name ↦ ?_
  exact .bind (Attribute.obeys_set value name content) fun _ ↦ .pure _

end BuiltinFunction

/-! ### Printing -/

theorem Print.obeys_convertAll (values : List Value) : (convertAll values).Obeys policy := by
  induction values with
  | nil => trivial
  | cons value rest ih =>
    exact .bind (Operation.obeys_textOf value) fun _ ↦ .bind ih fun _ ↦ .pure _

theorem Print.obeys_run (hwrites : policy.writes) (arguments : Arguments) :
    (run arguments).Obeys policy := by
  refine .heap_bind fun heap ↦ .ofExcept_bind fun options _ ↦ ?_
  refine .bind (obeys_convertAll arguments.positional) fun texts ↦ ?_
  refine .effect_bind hwrites fun _ _ ↦ ?_
  split
  · exact .effect_bind hwrites fun _ _ ↦ .pure _
  · trivial

/-! ### Compiling and importing -/

namespace Compile

theorem regular_integerArgument {value : Value} (hvalue : Arguments.Fits .integer value) :
    Regular (integerArgument value) := by
  obtain ⟨integer, hinteger⟩ := Option.isSome_iff_exists.mp hvalue
  rw [integerArgument, hinteger]
  exact regular_ok integer

/-- The request that bound arguments stand for can be made or is refused with an exception. -/
theorem regular_request {values : List Value}
    (hfits : List.Forall₂ Arguments.Fits [.any, .text, .text, .integer, .integer, .integer]
      values) :
    Regular (request values) := by
  obtain ⟨source, values, -, hfilename, rfl⟩ := List.forall₂_cons_left_iff.mp hfits
  obtain ⟨_, values, ⟨filename, rfl⟩, hmode, rfl⟩ := List.forall₂_cons_left_iff.mp hfilename
  obtain ⟨mode, values, -, hintegers, rfl⟩ := List.forall₂_cons_left_iff.mp hmode
  obtain ⟨flags, ignoresContext, optimization, rfl⟩ :=
    List.length_eq_three.mp hintegers.length_eq.symm
  obtain ⟨hflags, hintegers⟩ := List.forall₂_cons.mp hintegers
  obtain ⟨hignores, hintegers⟩ := List.forall₂_cons.mp hintegers
  obtain ⟨hoptimization, -⟩ := List.forall₂_cons.mp hintegers
  refine (regular_integerArgument hoptimization).bind fun level _ ↦ ?_
  by_cases hlevel : -1 ≤ level ∧ level ≤ 2
  · dsimp only
    rw [if_neg (not_not_intro hlevel)]
    cases mode.text?.bind CompileMode.ofName? with
    | none => exact regular_raised _
    | some mode =>
      cases source with
      | text source =>
        refine (regular_integerArgument hflags).bind fun flags _ ↦ ?_
        exact (regular_integerArgument hignores).bind fun _ _ ↦ regular_ok _
      | _ => exact regular_raised _
  · dsimp only
    rw [if_pos hlevel]
    exact regular_raised _

theorem read_format : Descriptor.read "Oss|iii:compile" =
    .ok ⟨"compile", [.any, .text, .text, .integer, .integer, .integer], 3⟩ := rfl

theorem obeys_run (arguments : Arguments) : (run arguments).Obeys policy := by
  refine .heap_bind fun heap ↦ .ofFailure_bind (Arguments.regular_bind read_format rfl)
    fun values hvalues ↦ ?_
  have hfits := Arguments.fits_of_bindTo rfl (fun place kind default hkind hdefault hplace ↦ ?_)
    (Arguments.bindTo_of_bind read_format rfl hvalues)
  · exact .ofFailure_bind (regular_request hfits) fun request _ ↦ .effect trivial
  · match place, hplace with
    | 3, _ | 4, _ | 5, _ =>
      cases hkind
      cases hdefault
      exact rfl
    | place + 6, _ => cases hkind

end Compile

namespace Import

theorem obeys_scope (which : String) (value : Value) : (scope which value).Obeys policy := by
  unfold scope
  split
  · exact .effect trivial
  · trivial
  · exact .heap_bind fun _ ↦ trivial

theorem obeys_names (value : Value) : (names value).Obeys policy := by
  refine .heap_bind fun heap ↦ ?_
  split
  · trivial
  · exact .ofExcept _
  · exact .ofExcept _
  · trivial

/-- A bound name and level are a target or are refused with an exception. -/
theorem regular_target {name : Value} (hname : Arguments.Fits .text name) (level : Value) :
    Regular (target name level) := by
  obtain ⟨name, rfl⟩ := hname
  unfold target
  dsimp only
  split
  · exact regular_raised _
  · split
    · exact regular_raised _
    · exact regular_ok _

theorem read_format : Descriptor.read "U|OOOi:__import__" =
    .ok ⟨"__import__", [.text, .any, .any, .any, .integer], 1⟩ := rfl

theorem obeys_run (arguments : Arguments) : (run arguments).Obeys policy := by
  refine .heap_bind fun heap ↦ .ofFailure_bind (Arguments.regular_bind read_format rfl)
    fun values hvalues ↦ ?_
  have hfits := Arguments.fits_of_bindTo rfl (fun place kind default hkind hdefault hplace ↦ ?_)
    (Arguments.bindTo_of_bind read_format rfl hvalues)
  · obtain ⟨name, others, hname, hothers, rfl⟩ := List.forall₂_cons_left_iff.mp hfits
    obtain ⟨globals, locals, fromList, level, rfl⟩ :=
      List.length_eq_four.mp hothers.length_eq.symm
    refine .ofFailure_bind (regular_target hname level) fun target _ ↦ ?_
    refine .bind (obeys_scope "globals" globals) fun globals ↦ ?_
    refine .bind (obeys_scope "locals" locals) fun locals ↦ ?_
    exact .bind (obeys_names fromList) fun names ↦ .effect trivial
  · match place, hplace with
    | 1, _ | 2, _ | 3, _ | 4, _ =>
      cases hkind
      cases hdefault
      trivial
    | place + 5, _ => cases hkind

end Import

/-! ### Types -/

namespace Constructor

theorem obeys_runType (arguments : Arguments) : (runType arguments).Obeys policy := by
  refine .heap_bind fun heap ↦ ?_
  split
  · trivial
  · exact ClassCreation.obeys_create _ arguments
  · trivial

/-- Only `list` and `tuple` drain an iterator. -/
theorem obeys_runNative {kind : NativeType}
    (hdrains : kind = .list ∨ kind = .tuple → policy.DrainsForeign)
    (arguments : Arguments) : (runNative kind arguments).Obeys policy := by
  refine .heap_bind fun heap ↦ ?_
  split
  · exact obeys_runType arguments
  · exact .ofFailure_bind Arguments.regular_optional fun _ _ ↦ .ofExcept _
  · exact .ofFailure_bind Arguments.regular_optional fun _ _ ↦ .ofExcept _
  · refine .ofFailure_bind Arguments.regular_optional fun value _ ↦ ?_
    exact .bind (Operation.obeys_textOf value) fun _ ↦ .pure _
  · exact .ofFailure_bind Arguments.regular_optional fun _ _ ↦ .pure _
  · refine .ofFailure_bind Arguments.regular_optional fun value _ ↦ ?_
    exact .bind (Operation.obeys_collect (hdrains (Or.inr rfl)) value) fun _ ↦ .pure _
  · refine .ofFailure_bind Arguments.regular_optional fun value _ ↦ ?_
    exact .bind (Operation.obeys_collect (hdrains (Or.inl rfl)) value) fun _ ↦ .new trivial
  · exact .ofExcept_bind fun _ _ ↦ .new trivial
  · trivial

theorem obeys_runException (cls : ExceptionClass) (arguments : Arguments) :
    (runException cls arguments).Obeys policy := by
  refine .heap_bind fun heap ↦ .ofExcept_bind fun _ _ ↦ ?_
  split
  · exact .new trivial
  · exact .new trivial
  · trivial

end Constructor

/-! ### Building classes -/

namespace BuildClass

theorem obeys_splitMetaclass (keywords : Option Address) :
    (splitMetaclass keywords).Obeys policy := by
  unfold splitMetaclass
  split
  · trivial
  · refine .heap_bind fun heap ↦ ?_
    dsimp only
    split
    · trivial
    · split
      · trivial
      · exact .effect_bind trivial fun _ _ ↦ .pure _

theorem obeys_prepared? (metaclass : Value) (arguments : List Value) (keywords : Option Address) :
    (prepared? metaclass arguments keywords).Obeys policy := by
  unfold prepared?
  split
  · refine .heap_bind fun heap ↦ ?_
    split
    · exact .bind (.call _ _) fun _ ↦ .pure _
    · trivial
  · exact Capability.obeys_invoke? metaclass _ _ _

theorem obeys_prepareNamespace (metaclass : Value) (metaclassName : String)
    (arguments : List Value) (keywords : Option Address) :
    (prepareNamespace metaclass metaclassName arguments keywords).Obeys policy := by
  refine .bind (obeys_prepared? metaclass arguments keywords) fun found ↦ ?_
  split
  · exact .effect trivial
  · trivial
  · exact .heap_bind fun _ ↦ trivial

theorem obeys_runBody
    (hmisuse : policy.faults "class body must be called with exactly its namespace")
    (body : FunctionRecord) (namespaceDict : Address) :
    (runBody body namespaceDict).Obeys policy :=
  .bind (Function.obeys_localsFor hmisuse body _) fun _ ↦ .request trivial

theorem obeys_fillClassCell (bodyResult cls : Value) :
    (fillClassCell bodyResult cls).Obeys policy := by
  unfold fillClassCell
  split
  · exact .effect trivial
  · trivial

/-- The construction of a class reports, and it calls a class body. -/
theorem obeys_run (hreports : policy.reports)
    (hmisuse : policy.faults "class body must be called with exactly its namespace")
    (arguments : Arguments) : (run arguments).Obeys policy := by
  refine .heap_bind fun heap ↦ .ofExcept_bind fun definition _ ↦ ?_
  refine .bind (obeys_splitMetaclass arguments.keywords) fun keywords ↦ ?_
  refine .heap_bind fun heap ↦ .ofExcept_bind fun metaclass _ ↦ ?_
  refine .effect_bind hreports fun _ _ ↦ ?_
  refine .bind (obeys_prepareNamespace metaclass _ _ _) fun namespaceDict ↦ ?_
  refine .bind (obeys_runBody hmisuse definition.body namespaceDict) fun result ↦ ?_
  split
  · trivial
  · refine .heap_bind fun heap ↦ .bind (.call metaclass _) fun cls ↦ ?_
    exact .bind (obeys_fillClassCell _ cls) fun _ ↦ .effect_bind hreports fun _ _ ↦ .pure _

end BuildClass

end Metaobject
