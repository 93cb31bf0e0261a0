import Metaobject.Proofs.Safety.Attribute
import Metaobject.Script.Execution

/-!
# Scripts are safe

The evaluation of every expression is safe in a held frame (`Script.safe_evaluate`), and so are
probes on held values (`Script.Probe.safe_run`), statements (`Script.safe_runStatement`) and the
running of code (`Script.safe_runCode`). The proofs over expressions and statements follow their
syntax.
-/

set_option autoImplicit false
set_option relaxedAutoImplicit false

namespace Metaobject

variable {heap : Heap}

theorem Registry.holds_find? (heap : Heap) {name : String} {value : Value}
    (hvalue : Registry.find? name = some value) : heap.Holds value := by
  have hmem := Heap.mem_of_lookup hvalue
  simp only [Registry.entries, List.mem_append, List.mem_map, List.mem_cons, Prod.mk.injEq,
    List.not_mem_nil, or_false] at hmem
  rcases hmem with (((h | ⟨_, _, _, rfl⟩) | ⟨_, _, _, rfl⟩) | ⟨_, _, _, rfl⟩) | h
  · rcases h with ⟨-, rfl⟩ | ⟨-, rfl⟩ | ⟨-, rfl⟩ | ⟨-, rfl⟩ <;> simp
  · exact .builtin _
  · exact .builtin _
  · exact .builtin _
  · rcases h with ⟨-, rfl⟩ | ⟨-, rfl⟩ <;> simp

namespace Script

variable {frame : Frame}

/-! ### Pieces -/

theorem holds_literal (heap : Heap) (literal : Literal) : heap.Holds literal.value := by
  cases literal with
  | int value => exact heap.holds_ofInt value
  | _ => simp [Literal.value]

theorem safe_variableValue (hformed : heap.WellFormed) (frame : Frame) (name : String) :
    (variableValue frame name).Safe heap Heap.Holds := by
  refine .heap_bind ?_
  split
  · rename_i value hvalue
    exact .pure ((hformed.entries _).find? hvalue)
  · split
    · rename_i value hvalue
      exact .pure ((hformed.entries _).find? hvalue)
    · trivial

theorem safe_builtinValue (heap : Heap) (name : String) :
    (builtinValue name).Safe heap Heap.Holds := by
  unfold builtinValue
  split
  · rename_i value hvalue
    exact .pure (Registry.holds_find? heap hvalue)
  · trivial

theorem safe_newDict {pairs : List (String × Value)} (hpairs : ∀ pair ∈ pairs, heap.Holds pair.2) :
    (newDict pairs).Safe heap Heap.Holds :=
  .new (Heap.holdsEntries_ofList hpairs) fun _ _ hnew ↦ hnew

theorem safe_wrapOnce {content : Value} (hcontent : heap.Holds content) (wrapping : Wrapping) :
    (wrapOnce content wrapping).Safe heap Heap.Holds := by
  cases wrapping with
  | list => exact .new (heap.holdsAll_nil.cons hcontent) fun _ _ hnew ↦ hnew
  | tuple => exact .pure (.tuple _ (heap.holdsAll_nil.cons hcontent))
  | dict => exact safe_newDict (by simpa using hcontent)

theorem safe_wrap (hformed : heap.WellFormed) (wrapping : Wrapping) (times : Nat) {content : Value}
    (hcontent : heap.Holds content) : (wrap wrapping times content).Safe heap Heap.Holds := by
  induction times generalizing heap content with
  | zero => exact .pure hcontent
  | succ times ih =>
    exact .bind hformed (safe_wrapOnce hcontent wrapping)
      fun _ _ hlater hinner ↦ ih hlater.formed hinner

theorem safe_callWith {callable : Value} {positional : List Value} {keywords : Option Address}
    (hcallable : heap.Holds callable) (hpositional : heap.HoldsAll positional)
    (hkeywords : ∀ address ∈ keywords, heap.Holds (.dict address)) :
    (callWith callable positional keywords).Safe heap Heap.Holds :=
  .heap_bind (.call hcallable (Arguments.held_of hpositional hkeywords))

theorem safe_chainClasses (hformed : heap.WellFormed) (stem : String) (index count : Nat)
    {base : Value} (hbase : heap.Holds base) :
    (chainClasses stem index count base).Safe heap Heap.Holds := by
  induction count generalizing heap index base with
  | zero => exact .pure hbase
  | succ count ih =>
    refine .bind hformed (safe_newDict (by simp)) fun newer attributes hlater hattributes ↦ ?_
    have hbases : newer.Holds (.tuple [base]) :=
      .tuple _ (newer.holdsAll_nil.cons (hbase.grow hlater.grows))
    refine .bind hlater.formed (safe_callWith (.builtin _)
      (((newer.holdsAll_nil.cons hattributes).cons hbases).cons (.text _)) (by simp))
      fun newest cls hnewest hcls ↦ ih hnewest.formed _ hcls

theorem safe_newCode (heap : Heap) (name : String) (code : CodeExpression) :
    (newCode name code).Safe heap fun newer address ↦ newer.Holds (.code address) := by
  obtain ⟨filename, parameters, isClassBody, body⟩ := code
  exact .effect trivial fun _ _ _ hnew ↦ hnew

theorem safe_dictAddress {value : Value} (hvalue : heap.Holds value) :
    (dictAddress value).Safe heap fun newer address ↦ newer.Holds (.dict address) := by
  unfold dictAddress
  split
  · exact hvalue
  · trivial

theorem holds_cellAddresses {values : List Value} {addresses : List Address}
    (hvalues : heap.HoldsAll values) (haddresses : cellAddresses values = some addresses) :
    ∀ address ∈ addresses, heap.Holds (.cell address) := by
  induction values generalizing addresses with
  | nil =>
    cases haddresses
    exact fun _ haddress ↦ absurd haddress List.not_mem_nil
  | cons value rest ih =>
    obtain ⟨hvalue, hrest⟩ := List.forall_mem_cons.mp hvalues
    unfold cellAddresses at haddresses
    rw [List.mapM_cons] at haddresses
    obtain ⟨first, hfirst, haddresses⟩ := Option.bind_eq_some_iff.mp haddresses
    obtain ⟨others, hothers, haddresses⟩ := Option.bind_eq_some_iff.mp haddresses
    cases haddresses
    refine List.forall_mem_cons.mpr ⟨?_, ih hrest hothers⟩
    split at hfirst
    · exact Option.some.inj hfirst ▸ hvalue
    · cases hfirst

theorem safe_closureAddresses {values : List Value} (hvalues : heap.HoldsAll values) :
    (closureAddresses values).Safe heap
      fun newer addresses ↦ ∀ address ∈ addresses, newer.Holds (.cell address) := by
  unfold closureAddresses
  split
  · rename_i addresses haddresses
    exact holds_cellAddresses hvalues haddresses
  · trivial

/-! ### Probes -/

theorem safe_fitting {Result : Type} {found : Option Result} {use : Result → Value}
    (huse : ∀ result, found = some result → heap.Holds (use result)) :
    (fitting found use).Safe heap Heap.Holds := by
  unfold fitting
  split
  · rename_i result
    exact huse result rfl
  · trivial

theorem ValueProbe.safe_run (hformed : heap.WellFormed) (probe : ValueProbe)
    {arguments : List Value} (harguments : heap.HoldsAll arguments) :
    (probe.run arguments).Safe heap Heap.Holds := by
  refine .heap_bind ?_
  split
  · exact .pure (.text _)
  · exact .pure (.text _)
  · exact .pure (.bool _)
  · exact .pure (Heap.holds_ofOption.mpr (Heap.holdsAll_optionMap fun _ _ ↦ heap.holds_ofInt _))
  · exact .pure (Heap.holds_ofOption.mpr (Heap.holdsAll_optionMap fun _ _ ↦ .text _))
  · refine .pure (Heap.holds_ofOption.mpr (Heap.holdsAll_optionMap fun cls hcls ↦ ?_))
    exact Heap.holds_toValue.mpr ((harguments _ List.mem_cons_self).hasClass hcls)
  · exact .pure (Heap.holds_toValue.mpr
      (hformed.hasClass_typeOf (harguments _ List.mem_cons_self)))
  · exact .pure (.bool _)
  · exact .pure (.bool _)
  · trivial

theorem safe_stepValue (hformed : heap.WellFormed) {iterator : Value}
    (hiterator : heap.Holds iterator) : (stepValue iterator).Safe heap Heap.Holds := by
  have htuple : ∀ {newer : Heap} (word : String) {value : Value}, newer.Holds value →
      newer.Holds (.tuple [.text word, value]) := fun word value hvalue ↦
    .tuple _ ((Heap.holdsAll_nil _).cons hvalue |>.cons (.text word))
  refine .handling_bind (Operation.safe_advance hformed hiterator)
    (fun newer step hlater hstep ↦ ?_) fun newer failure hlater ↦ ?_
  · cases step with
    | produced item => exact .pure (htuple "produced" hstep)
    | exhausted signal =>
      cases signal with
      | none => exact .pure (.tuple _ (newer.holdsAll_nil.cons (.text _)))
      | some signal =>
        exact .bind hlater.formed (.new trivial fun _ _ hnew ↦ hnew)
          fun _ _ _ hsignal ↦ .pure (htuple "exhausted" hsignal)
  · exact .bind hlater.formed (.new trivial fun _ _ hnew ↦ hnew)
      fun _ _ _ hfailure ↦ .pure (htuple "failed" hfailure)

theorem RuntimeProbe.safe_run (hformed : heap.WellFormed) (probe : RuntimeProbe)
    {arguments : List Value} (harguments : heap.HoldsAll arguments) :
    (probe.run arguments).Safe heap Heap.Holds := by
  unfold RuntimeProbe.run
  split <;> simp only [Heap.HoldsAll, List.forall_mem_cons] at harguments
  · exact .bind hformed (Operation.safe_length hformed harguments.1)
      fun newer _ _ _ ↦ .pure (newer.holds_ofNat _)
  · exact Operation.safe_absolute hformed harguments.1
  · exact Operation.safe_power hformed harguments.1 harguments.2.1 heap.holdsAll_none
  · exact Operation.safe_power hformed harguments.1 harguments.2.1
      (Heap.holdsAll_some harguments.2.2.1)
  · exact Operation.safe_round hformed harguments.1 harguments.2.1
  · exact Operation.safe_iterate hformed harguments.1
  · exact .bind hformed (Operation.safe_collect hformed harguments.1)
      fun _ _ _ hitems ↦ .new hitems fun _ _ hnew ↦ hnew
  · exact .bind hformed (Operation.safe_textOf hformed harguments.1)
      fun _ _ _ _ ↦ .pure (.text _)
  · exact Attribute.safe_get hformed harguments.1 _
  · exact .bind hformed (Attribute.safe_set harguments.2.2.1 _ _) fun _ _ _ _ ↦ .pure .null
  · exact .effect_bind trivial fun newer _ _ _ ↦ .pure (newer.holds_ofNat _)
  · exact safe_stepValue hformed harguments.1
  · split
    · rename_i hcells
      have hclosure := holds_cellAddresses (Heap.holds_tuple.mp harguments.2.2.2.1) hcells
      exact .request_bind (.runCode _ _)
        ⟨⟨harguments.1, harguments.2.1, hclosure⟩, harguments.2.2.1⟩
        fun _ _ _ hresult ↦ .pure (Heap.holds_ofOption.mpr hresult)
    · trivial
  · trivial

theorem ClassProbe.safe_run (hformed : heap.WellFormed) (probe : ClassProbe)
    {arguments : List Value} (harguments : heap.HoldsAll arguments) :
    (probe.run arguments).Safe heap Heap.Holds := by
  refine .heap_bind ?_
  split <;> simp only [Heap.HoldsAll, List.forall_mem_cons] at harguments
  · exact safe_fitting fun _ _ ↦ .text _
  · exact safe_fitting fun cls hcls ↦ Attribute.holds_classTuple fun ancestor ↦
      hformed.hasClass_linearization (harguments.1.hasClass hcls)
  · exact safe_fitting fun _ _ ↦ .bool _
  · exact safe_fitting fun _ _ ↦ .bool _
  · exact safe_fitting fun cls _ ↦ Heap.holds_toValue.mpr
      (hformed.hierarchy.hasClass_metaclassOf cls)
  · exact safe_fitting fun cls _ ↦ Heap.holds_ofOption.mpr
      fun value hvalue ↦ hformed.lookup hvalue
  · split
    · rename_i start hstart
      refine .ofExcept fun result hresult ↦ ?_
      exact hformed.holds_mostDerived (harguments.1.hasClass hstart)
        (Heap.holds_tuple.mp harguments.2.1) hresult
    · trivial
  · refine safe_fitting fun record hrecord ↦ Attribute.holds_classTuple fun base hbase ↦ ?_
    exact (hformed.hierarchy _ record hrecord).hasClass_base hbase
  · exact safe_fitting fun record hrecord ↦ hformed.namespaceDict hrecord
  · exact .pure (.bool _)
  · exact safe_fitting fun _ hinstance ↦ (hformed.instance? hinstance).1
  · exact safe_fitting fun _ hinstance ↦ (hformed.instance? hinstance).2
  · trivial

theorem DictProbe.safe_run (hformed : heap.WellFormed) (probe : DictProbe)
    {arguments : List Value} (harguments : heap.HoldsAll arguments) :
    (probe.run arguments).Safe heap Heap.Holds := by
  refine .heap_bind ?_
  split <;> simp only [Heap.HoldsAll, List.forall_mem_cons] at harguments
  · exact .pure (Heap.holds_ofOption.mpr fun value hvalue ↦ (hformed.entries _).find? hvalue)
  · exact .effect_bind harguments.2.2.1 fun _ _ _ _ ↦ .pure .null
  · refine .effect_bind trivial fun newer _ hlater _ ↦ .pure (Heap.holds_ofOption.mpr ?_)
    exact fun value hvalue ↦ ((hformed.entries _).find? hvalue).grow hlater.grows
  · exact .pure (.bool _)
  · exact .pure (heap.holds_ofNat _)
  · exact .pure (.bool _)
  · exact .pure (.tuple _ (Heap.holdsAll_map fun _ _ ↦ .text _))
  · refine .pure (.tuple _ (Heap.holdsAll_map fun pair hpair ↦ ?_))
    exact .tuple _ ((heap.holdsAll_nil.cons (hformed.entries _ pair hpair)).cons (.text _))
  · exact .new (hformed.entries _) fun _ _ hnew ↦ hnew
  · trivial

theorem safe_exceptionOf (heap : Heap) (cls : Value) (argument : Option String) :
    (exceptionOf cls argument).Safe heap Heap.Holds := by
  unfold exceptionOf
  split
  · exact .new trivial fun _ _ hnew ↦ hnew
  · trivial

theorem safe_localScope (hformed : heap.WellFormed) (function : Address) {arguments : Arguments}
    (harguments : arguments.Held heap) :
    (localScope heap function arguments).Safe heap Heap.Holds := by
  unfold localScope
  split
  · rename_i record hrecord
    exact .bind hformed (Function.safe_localsFor hformed (hformed.function? hrecord) harguments)
      fun _ _ _ hlocals ↦ .pure hlocals
  · trivial

theorem ObjectProbe.safe_run (hformed : heap.WellFormed) (probe : ObjectProbe)
    {arguments : List Value} (harguments : heap.HoldsAll arguments) :
    (probe.run arguments).Safe heap Heap.Holds := by
  refine .heap_bind ?_
  split <;> simp only [Heap.HoldsAll, List.forall_mem_cons] at harguments
  · exact .new heap.holdsAll_none fun _ _ hnew ↦ hnew
  · exact .new (Heap.holdsAll_some harguments.1) fun _ _ hnew ↦ hnew
  · exact .pure (Heap.holds_ofOption.mpr (hformed.cellContent? _))
  · exact .effect_bind harguments.2.1 fun _ _ _ _ ↦ .pure .null
  · exact .effect_bind harguments.2.1 fun _ _ _ _ ↦ .pure .null
  · exact .pure (.bool _)
  · exact safe_fitting fun _ _ ↦ .text _
  · exact safe_fitting fun _ hrecord ↦ (hformed.function? hrecord).globals
  · exact safe_fitting fun _ hrecord ↦ (hformed.function? hrecord).code
  · exact safe_fitting fun _ hrecord ↦
      .tuple _ (Heap.holdsAll_map (hformed.function? hrecord).closure)
  · exact safe_localScope hformed _ (Arguments.held_ofList (Heap.holds_tuple.mp harguments.2.1))
  · refine safe_localScope hformed _ ⟨Heap.holds_tuple.mp harguments.2.1, fun address haddress ↦ ?_⟩
    exact Option.some.inj haddress ▸ harguments.2.2.1
  · exact .new ⟨harguments.1, harguments.2.1⟩ fun _ _ hnew ↦ hnew
  · exact safe_fitting fun _ hmethod ↦ (hformed.method? hmethod).1
  · exact safe_fitting fun _ hmethod ↦ (hformed.method? hmethod).2
  · exact safe_fitting fun _ _ ↦ .text _
  · exact safe_fitting fun _ _ ↦ .text _
  · exact safe_fitting fun _ _ ↦ .tuple _ (Heap.holdsAll_map fun _ _ ↦ .text _)
  · exact safe_fitting fun _ _ ↦ .bool _
  · exact safe_fitting fun _ _ ↦ .text _
  · exact safe_fitting fun _ hmodule ↦ hformed.module? hmodule
  · exact safe_exceptionOf heap _ none
  · exact safe_exceptionOf heap _ _
  · exact safe_fitting fun _ _ ↦ .text _
  · exact safe_fitting fun _ _ ↦ .text _
  · exact safe_fitting fun _ _ ↦ .text _
  · exact safe_fitting fun _ _ ↦ Heap.holds_ofOption.mpr
      (Heap.holdsAll_optionMap fun _ _ ↦ .text _)
  · exact .new (Heap.holds_tuple.mp harguments.1) fun _ _ hnew ↦ hnew
  · exact .effect_bind harguments.2.1 fun _ _ _ _ ↦ .pure .null
  · trivial

theorem Probe.safe_run (hformed : heap.WellFormed) (probe : Probe) {arguments : List Value}
    (harguments : heap.HoldsAll arguments) : (probe.run arguments).Safe heap Heap.Holds := by
  cases probe with
  | value probe => exact probe.safe_run hformed harguments
  | runtime probe => exact probe.safe_run hformed harguments
  | cls probe => exact probe.safe_run hformed harguments
  | dict probe => exact probe.safe_run hformed harguments
  | object probe => exact probe.safe_run hformed harguments

/-! ### Expressions -/

mutual

/-- The value of an expression is held. -/
theorem safe_evaluate {heap : Heap} (hformed : heap.WellFormed) (hframe : frame.Held heap)
    (expression : Expression) : (evaluate frame expression).Safe heap Heap.Holds := by
  match expression with
  | .literal literal => exact holds_literal heap literal
  | .variable name => exact safe_variableValue hformed frame name
  | .builtin name => exact safe_builtinValue heap name
  | .tuple items =>
    exact .bind hformed (safe_evaluateAll hformed hframe items)
      fun _ values _ hvalues ↦ .pure (.tuple values hvalues)
  | .list items =>
    exact .bind hformed (safe_evaluateAll hformed hframe items)
      fun _ _ _ hvalues ↦ .new hvalues fun _ _ hnew ↦ hnew
  | .dict pairs =>
    exact .bind hformed (safe_evaluatePairs hformed hframe pairs)
      fun _ _ _ hvalues ↦ safe_newDict hvalues
  | .nest times wrapping core =>
    exact .bind hformed (safe_evaluate hformed hframe core)
      fun _ _ hlater hvalue ↦ safe_wrap hlater.formed wrapping times hvalue
  | .closureCell index =>
    unfold evaluate
    split
    · rename_i address haddress
      exact hframe.closure address (List.mem_of_getElem? haddress)
    · trivial
  | .call callee positional keywords =>
    refine .bind hformed (safe_evaluate hformed hframe callee)
      fun first callable hfirst hcallable ↦ ?_
    refine .bind hfirst.formed
      (safe_evaluateAll hfirst.formed (hframe.grow hfirst.grows) positional)
      fun second values hsecond hvalues ↦ ?_
    have hlater := hfirst.trans hsecond
    refine .bind hsecond.formed
      (safe_evaluateKeywords hsecond.formed (hframe.grow hlater.grows) keywords)
      fun third address hthird haddress ↦ ?_
    exact safe_callWith (hcallable.grow (hsecond.trans hthird).grows)
      (Heap.HoldsAll.grow hvalues hthird.grows) haddress
  | .callBuiltin name positional keywords =>
    refine .bind hformed (safe_evaluateAll hformed hframe positional)
      fun first values hfirst hvalues ↦ ?_
    refine .bind hfirst.formed
      (safe_evaluateKeywords hfirst.formed (hframe.grow hfirst.grows) keywords)
      fun second address hsecond haddress ↦ ?_
    refine .bind hsecond.formed (safe_builtinValue second name)
      fun third callable hthird hcallable ↦ ?_
    exact safe_callWith hcallable (Heap.HoldsAll.grow hvalues (hsecond.trans hthird).grows)
      fun other hother ↦ (haddress other hother).grow hthird.grows
  | .probe probe arguments =>
    exact .bind hformed (safe_evaluateAll hformed hframe arguments)
      fun _ _ hlater hvalues ↦ probe.safe_run hlater.formed hvalues
  | .function name code defaults closure globals =>
    refine .bind hformed (safe_evaluateGlobals hformed hframe globals)
      fun first globals hfirst hglobals ↦ ?_
    refine .bind hfirst.formed (safe_evaluateAll hfirst.formed (hframe.grow hfirst.grows) closure)
      fun second cells hsecond hcells ↦ ?_
    refine .bind hsecond.formed (safe_closureAddresses hcells)
      fun third closure hthird hclosure ↦ ?_
    have hlater := (hfirst.trans hsecond).trans hthird
    refine .bind hthird.formed (safe_evaluateAll hthird.formed (hframe.grow hlater.grows) defaults)
      fun fourth values hfourth hvalues ↦ ?_
    refine .bind hfourth.formed (safe_newCode fourth name code)
      fun fifth address hfifth haddress ↦ ?_
    have hlast := hfourth.trans hfifth
    refine .new ?_ fun _ _ hnew ↦ hnew
    exact
      { globals := hglobals.grow ((hsecond.trans hthird).trans hlast).grows
        code := haddress
        closure := fun cell hcell ↦ (hclosure cell hcell).grow hlast.grows
        defaults := Heap.HoldsAll.grow hvalues hfifth.grows }
  | .moduleObject name pairs =>
    exact .bind hformed (safe_evaluatePairs hformed hframe pairs)
      fun _ _ _ hvalues ↦ .new (Heap.holdsEntries_ofList hvalues) fun _ _ hnew ↦ hnew
  | .chain count stem base =>
    exact .bind hformed (safe_evaluate hformed hframe base)
      fun _ _ hlater hvalue ↦ safe_chainClasses hlater.formed stem 0 count hvalue

theorem safe_evaluateAll {heap : Heap} (hformed : heap.WellFormed) (hframe : frame.Held heap)
    (expressions : List Expression) :
    (evaluateAll frame expressions).Safe heap fun newer values ↦ newer.HoldsAll values := by
  cases expressions with
  | nil => exact heap.holdsAll_nil
  | cons expression rest =>
    refine .bind hformed (safe_evaluate hformed hframe expression)
      fun newer value hlater hvalue ↦ ?_
    exact .bind hlater.formed (safe_evaluateAll hlater.formed (hframe.grow hlater.grows) rest)
      fun _ _ hnewest hvalues ↦ .pure (hvalues.cons (hvalue.grow hnewest.grows))

theorem safe_evaluatePairs {heap : Heap} (hformed : heap.WellFormed) (hframe : frame.Held heap)
    (pairs : List (String × Expression)) :
    (evaluatePairs frame pairs).Safe heap
      fun newer values ↦ ∀ pair ∈ values, newer.Holds pair.2 := by
  cases pairs with
  | nil => exact fun _ hpair ↦ absurd hpair List.not_mem_nil
  | cons pair rest =>
    obtain ⟨key, expression⟩ := pair
    refine .bind hformed (safe_evaluate hformed hframe expression)
      fun newer value hlater hvalue ↦ ?_
    exact .bind hlater.formed (safe_evaluatePairs hlater.formed (hframe.grow hlater.grows) rest)
      fun _ _ hnewest hvalues ↦
        .pure (List.forall_mem_cons.mpr ⟨hvalue.grow hnewest.grows, hvalues⟩)

theorem safe_evaluateKeywords {heap : Heap} (hformed : heap.WellFormed)
    (hframe : frame.Held heap) (keywords : Keywords) :
    (evaluateKeywords frame keywords).Safe heap
      fun newer found ↦ ∀ address ∈ found, newer.Holds (.dict address) := by
  cases keywords with
  | absent => exact fun _ hfound ↦ nomatch hfound
  | pairs pairs =>
    refine .bind hformed (safe_evaluatePairs hformed hframe pairs)
      fun newer values hlater hvalues ↦ ?_
    exact .effect_bind (Heap.holdsEntries_ofList hvalues)
      fun _ _ _ hnew ↦ .pure fun other hother ↦ Option.some.inj hother ▸ hnew
  | dict dict =>
    refine .bind hformed (safe_evaluate hformed hframe dict) fun newer value hlater hvalue ↦ ?_
    exact .bind hlater.formed (safe_dictAddress hvalue)
      fun _ _ _ hdict ↦ .pure fun other hother ↦ Option.some.inj hother ▸ hdict

theorem safe_evaluateGlobals {heap : Heap} (hformed : heap.WellFormed) (hframe : frame.Held heap)
    (globals : Option Expression) :
    (evaluateGlobals frame globals).Safe heap
      fun newer address ↦ newer.Holds (.dict address) := by
  cases globals with
  | none => exact hframe.globals
  | some globals =>
    exact .bind hformed (safe_evaluate hformed hframe globals)
      fun _ _ _ hvalue ↦ safe_dictAddress hvalue

end

/-! ### Statements -/

/-- Whether the value of an outcome is held. -/
def Outcome.Held (heap : Heap) : Outcome → Prop
  | .value content | .result content => heap.Holds content

theorem Outcome.held_ofBlock {found : Option Value} (hfound : heap.HoldsAll found) :
    (Outcome.ofBlock found).Held heap := by
  cases found with
  | none => exact Heap.Holds.null
  | some content => exact hfound content rfl

/-- A block that is safe in every later heap is safe when it is repeated. -/
theorem safe_runRepeatedly (hformed : heap.WellFormed) {block : Program (Option Value)}
    (hblock : ∀ newer, heap.Later newer → block.Safe newer fun newest ↦ newest.HoldsAll)
    (times : Nat) : (runRepeatedly block times).Safe heap fun newer ↦ newer.HoldsAll := by
  induction times generalizing heap with
  | zero => exact heap.holdsAll_none
  | succ times ih =>
    refine .bind hformed (hblock heap hformed.later_self) fun newer result hlater hresult ↦ ?_
    cases result with
    | some result => exact .pure hresult
    | none => exact ih hlater.formed fun newest hnewest ↦ hblock newest (hlater.trans hnewest)

theorem safe_bindCaught (hformed : heap.WellFormed) (frame : Frame) (binding : Option String)
    (caught : Exception) : (bindCaught frame binding caught).Safe heap fun _ _ ↦ True := by
  unfold bindCaught
  split
  · exact .pure trivial
  · exact .bind hformed (.new trivial fun _ _ hnew ↦ hnew)
      fun _ _ _ hvalue ↦ .effect hvalue fun _ _ _ _ ↦ trivial

mutual

/-- The value or the result of a statement is held. -/
theorem safe_runStatement {heap : Heap} (hformed : heap.WellFormed) (hframe : frame.Held heap)
    (statement : Statement) :
    (runStatement frame statement).Safe heap fun newer outcome ↦ outcome.Held newer := by
  cases statement with
  | assign scope name content =>
    refine .bind hformed (safe_evaluate hformed hframe content) fun newer value _ hvalue ↦ ?_
    exact .effect_bind hvalue fun _ _ hnewest _ ↦ .pure (hvalue.grow hnewest.grows)
  | evaluate expression =>
    exact .bind hformed (safe_evaluate hformed hframe expression) fun _ _ _ hvalue ↦ .pure hvalue
  | result expression =>
    exact .bind hformed (safe_evaluate hformed hframe expression) fun _ _ _ hvalue ↦ .pure hvalue
  | raise => trivial
  | fault => trivial
  | branch condition yes no =>
    refine .bind hformed (safe_evaluate hformed hframe condition) fun newer value hlater _ ↦ ?_
    have hframe := hframe.grow hlater.grows
    refine .heap_bind ?_
    split
    · exact .bind hlater.formed (safe_runBlock hlater.formed hframe yes)
        fun _ _ _ hfound ↦ .pure (Outcome.held_ofBlock hfound)
    · exact .bind hlater.formed (safe_runBlock hlater.formed hframe no)
        fun _ _ _ hfound ↦ .pure (Outcome.held_ofBlock hfound)
  | loop times body =>
    have hblock : ∀ newer, heap.Later newer →
        (runBlock frame body).Safe newer fun newest ↦ newest.HoldsAll := fun newer hlater ↦
      safe_runBlock hlater.formed (hframe.grow hlater.grows) body
    exact .bind hformed (safe_runRepeatedly hformed hblock times)
      fun _ _ _ hfound ↦ .pure (Outcome.held_ofBlock hfound)
  | protect body handled binding recovery =>
    refine .handling_bind (safe_runBlock hformed hframe body)
      (fun _ _ _ hfound ↦ .pure (Outcome.held_ofBlock hfound)) fun newer caught hlater ↦ ?_
    refine .bind hlater.formed (safe_bindCaught hlater.formed frame binding caught)
      fun newest _ hnewest _ ↦ ?_
    have hframe := hframe.grow (hlater.trans hnewest).grows
    exact .bind hnewest.formed (safe_runBlock hnewest.formed hframe recovery)
      fun _ _ _ hfound ↦ .pure (Outcome.held_ofBlock hfound)

theorem safe_runBlock {heap : Heap} (hformed : heap.WellFormed) (hframe : frame.Held heap)
    (statements : List Statement) :
    (runBlock frame statements).Safe heap fun newer ↦ newer.HoldsAll := by
  cases statements with
  | nil => exact heap.holdsAll_none
  | cons statement rest =>
    refine .bind hformed (safe_runStatement hformed hframe statement)
      fun newer outcome hlater houtcome ↦ ?_
    cases outcome with
    | result value => exact .pure (Heap.holdsAll_some houtcome)
    | value => exact safe_runBlock hlater.formed (hframe.grow hlater.grows) rest

end

/-- The running of code is safe, whatever the code is. -/
theorem safe_runCode (hformed : heap.WellFormed) (hframe : frame.Held heap) {code : Address}
    (hcode : heap.Holds (.code code)) :
    (runCode frame code).Safe heap fun newer ↦ newer.HoldsAll :=
  .bind hformed (.effect hcode fun _ _ _ _ ↦ trivial) fun _ statements hlater _ ↦
    safe_runBlock hlater.formed (hframe.grow hlater.grows) statements

theorem safe_runStep (hformed : heap.WellFormed) (hframe : frame.Held heap)
    (statement : Statement) : (runStep frame statement).Safe heap Heap.Holds := by
  refine .bind hformed (safe_runStatement hformed hframe statement)
    fun newer outcome _ houtcome ↦ ?_
  cases outcome <;> exact .pure houtcome

end Script

end Metaobject
