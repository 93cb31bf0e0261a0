import Metaobject.Builtin.Basic
import Metaobject.Builtin.BuildClass
import Metaobject.Builtin.Collaboration
import Metaobject.Builtin.Constructor
import Metaobject.Builtin.Print
import Metaobject.Proofs.Safety.Attribute

/-!
# Builtins are safe

Every builtin is safe on held arguments and gives a held value: the functions on single values,
printing, compiling and importing, the constructors, and the construction of classes
(`BuildClass.safe_run`).
-/

set_option autoImplicit false
set_option relaxedAutoImplicit false

namespace Metaobject

variable {heap : Heap} {arguments : Arguments}

/-! ### Functions on single values -/

namespace BuiltinFunction

theorem safe_runAbs (hformed : heap.WellFormed) (harguments : arguments.Held heap) :
    (runAbs arguments).Safe heap Heap.Holds := by
  refine .ofFailure_bind fun value hvalue ↦ ?_
  have hheld := harguments.positional
  rw [Arguments.eq_of_one hvalue] at hheld
  exact Operation.safe_absolute hformed (hheld value List.mem_cons_self)

theorem safe_runPow (hformed : heap.WellFormed) (harguments : arguments.Held heap) :
    (runPow arguments).Safe heap Heap.Holds := by
  refine .ofExcept_bind fun values hvalues ↦ ?_
  have hheld := Arguments.holdsAll_withDefaults harguments (by simp [Heap.HoldsAll]) hvalues
  split
  · simp only [Heap.HoldsAll, List.forall_mem_cons] at hheld
    exact Operation.safe_power hformed hheld.1 hheld.2.1 heap.holdsAll_none
  · simp only [Heap.HoldsAll, List.forall_mem_cons] at hheld
    exact Operation.safe_power hformed hheld.1 hheld.2.1 (Heap.holdsAll_some hheld.2.2.1)
  · trivial

theorem safe_runRound (hformed : heap.WellFormed) (harguments : arguments.Held heap) :
    (runRound arguments).Safe heap Heap.Holds := by
  refine .ofExcept_bind fun values hvalues ↦ ?_
  have hheld := Arguments.holdsAll_withDefaults harguments (by simp [Heap.HoldsAll]) hvalues
  split
  · simp only [Heap.HoldsAll, List.forall_mem_cons] at hheld
    exact Operation.safe_round hformed hheld.1 hheld.2.1
  · trivial

theorem safe_runLen (hformed : heap.WellFormed) (harguments : arguments.Held heap) :
    (runLen arguments).Safe heap Heap.Holds := by
  refine .ofFailure_bind fun value hvalue ↦ ?_
  have hheld := harguments.positional
  rw [Arguments.eq_of_one hvalue] at hheld
  exact .bind hformed (Operation.safe_length hformed (hheld value List.mem_cons_self))
    fun newer length _ _ ↦ .pure (newer.holds_ofNat length)

theorem safe_runNext (hformed : heap.WellFormed) (harguments : arguments.Held heap) :
    (runNext arguments).Safe heap Heap.Holds := by
  refine .ofFailure_bind fun ⟨iterator, default⟩ hbound ↦ ?_
  have hheld := harguments.positional
  rw [Arguments.eq_of_oneOrTwo hbound] at hheld
  obtain ⟨hiterator, hdefault⟩ := List.forall_mem_cons.mp hheld
  refine .bind hformed (Operation.safe_advance hformed hiterator) fun newer step hlater hstep ↦ ?_
  split
  · exact .pure hstep
  · rename_i default
    exact .pure ((hdefault default (by simp)).grow hlater.grows)
  · trivial

theorem safe_runChr (heap : Heap) : (runChr arguments).Safe heap Heap.Holds := by
  refine .heap_bind (.ofFailure_bind fun values _ ↦ ?_)
  split
  · split
    · split
      · exact .pure (.text _)
      · trivial
    · trivial
  · trivial

theorem safe_runOrd (heap : Heap) : (runOrd arguments).Safe heap Heap.Holds := by
  refine .ofFailure_bind fun value _ ↦ ?_
  split
  · split
    · exact .pure (heap.holds_ofNat _)
    · trivial
  · exact .pure (heap.holds_ofNat _)
  · trivial
  · exact .heap_bind trivial

theorem safe_attributeName (heap : Heap) (function : BuiltinFunction) (name : Value) :
    (attributeName function name).Safe heap fun _ _ ↦ True := by
  unfold attributeName
  split <;> trivial

theorem safe_runGetattr (hformed : heap.WellFormed) (harguments : arguments.Held heap) :
    (runGetattr arguments).Safe heap Heap.Holds := by
  refine .ofFailure_bind fun ⟨value, name, default⟩ hbound ↦ ?_
  have hheld := harguments.positional
  rw [Arguments.eq_of_twoOrThree hbound] at hheld
  obtain ⟨hvalue, hheld⟩ := List.forall_mem_cons.mp hheld
  refine .bind hformed (safe_attributeName heap getattr name) fun newer name hlater _ ↦ ?_
  have hget := Attribute.safe_get hlater.formed (hvalue.grow hlater.grows) name
  cases default with
  | none => exact hget
  | some default =>
    refine .handling_bind hget (fun newest result _ hresult ↦ .pure hresult)
      fun newest _ hnewest ↦ .pure ?_
    exact (hheld default (by simp)).grow (hlater.trans hnewest).grows

theorem safe_runHasattr (hformed : heap.WellFormed) (harguments : arguments.Held heap) :
    (runHasattr arguments).Safe heap Heap.Holds := by
  refine .ofFailure_bind fun ⟨value, name⟩ hbound ↦ ?_
  have hheld := harguments.positional
  rw [Arguments.eq_of_two hbound] at hheld
  have hvalue := hheld value List.mem_cons_self
  refine .bind hformed (safe_attributeName heap hasattr name) fun newer name hlater _ ↦ ?_
  exact .handling_bind (Attribute.safe_get hlater.formed (hvalue.grow hlater.grows) name)
    (fun _ _ _ _ ↦ .pure (.bool true)) fun _ _ _ ↦ .pure (.bool false)

theorem safe_runSetattr (hformed : heap.WellFormed) (harguments : arguments.Held heap) :
    (runSetattr arguments).Safe heap Heap.Holds := by
  refine .ofFailure_bind fun ⟨value, name, content⟩ hbound ↦ ?_
  have hcontent : heap.Holds content :=
    harguments.positional content (by simp [Arguments.eq_of_three hbound])
  refine .bind hformed (safe_attributeName heap setattr name) fun newer name hlater _ ↦ ?_
  exact .bind hlater.formed (Attribute.safe_set (hcontent.grow hlater.grows) value name)
    fun _ _ _ _ ↦ .pure .null

end BuiltinFunction

/-! ### Printing -/

theorem Print.safe_convertAll (hformed : heap.WellFormed) {values : List Value}
    (hvalues : heap.HoldsAll values) :
    (Print.convertAll values).Safe heap fun _ _ ↦ True := by
  induction values generalizing heap with
  | nil => trivial
  | cons value rest ih =>
    obtain ⟨hvalue, hrest⟩ := List.forall_mem_cons.mp hvalues
    refine .bind hformed (Operation.safe_textOf hformed hvalue) fun newer text hlater _ ↦ ?_
    exact .bind hlater.formed (ih hlater.formed (Heap.HoldsAll.grow hrest hlater.grows))
      fun _ _ _ _ ↦ .pure trivial

theorem Print.safe_run (hformed : heap.WellFormed) (harguments : arguments.Held heap) :
    (Print.run arguments).Safe heap Heap.Holds := by
  refine .heap_bind (.ofExcept_bind fun options _ ↦ ?_)
  refine .bind hformed (safe_convertAll hformed harguments.positional) fun newer texts _ _ ↦ ?_
  refine .effect_bind trivial fun newest _ _ _ ↦ ?_
  split
  · exact .effect_bind trivial fun _ _ _ _ ↦ .pure .null
  · exact .pure .null

/-! ### Compiling and importing -/

theorem Compile.safe_run (heap : Heap) : (Compile.run arguments).Safe heap Heap.Holds := by
  refine .heap_bind (.ofFailure_bind fun bound _ ↦ .ofFailure_bind fun request _ ↦ ?_)
  exact .effect trivial fun _ _ _ hanswer ↦ hanswer

theorem Import.safe_scope (heap : Heap) (which : String) (value : Value) :
    (Import.scope which value).Safe heap fun _ _ ↦ True := by
  unfold Import.scope
  split
  · exact .effect heap.holdsEntries_empty fun _ _ _ _ ↦ trivial
  · trivial
  · exact .heap_bind trivial

theorem Import.safe_names (heap : Heap) (value : Value) :
    (Import.names value).Safe heap fun _ _ ↦ True := by
  refine .heap_bind ?_
  split
  · exact .pure trivial
  · exact .ofExcept fun _ _ ↦ trivial
  · exact .ofExcept fun _ _ ↦ trivial
  · trivial

theorem Import.safe_run (hformed : heap.WellFormed) :
    (Import.run arguments).Safe heap Heap.Holds := by
  refine .heap_bind (.ofFailure_bind fun bound _ ↦ ?_)
  split
  · refine .ofFailure_bind fun ⟨name, level⟩ _ ↦ ?_
    refine .bind hformed (safe_scope heap _ _) fun first globals hfirst _ ↦ ?_
    refine .bind hfirst.formed (safe_scope first _ _) fun second locals hsecond _ ↦ ?_
    refine .bind hsecond.formed (safe_names second _) fun third names _ _ ↦ ?_
    exact .effect trivial fun _ _ _ hanswer ↦ hanswer
  · trivial

/-! ### Constructors -/

namespace Constructor

theorem holds_integerOf {value result : Value} (hvalue : heap.Holds value)
    (hresult : integerOf heap value = .ok result) : heap.Holds result := by
  unfold integerOf at hresult
  split at hresult
  · split at hresult
    · cases hresult
    · split at hresult
      · cases hresult
      · exact Except.ok.inj hresult ▸ heap.holds_ofInt _
  · split at hresult
    · exact Except.ok.inj hresult ▸ heap.holds_ofInt _
    · cases hresult
  · exact Except.ok.inj hresult ▸ hvalue
  · exact Except.ok.inj hresult ▸ hvalue
  · split at hresult
    · exact Except.ok.inj hresult ▸ heap.holds_ofInt _
    · cases hresult

theorem holds_doubleOf {value result : Value} (hresult : doubleOf heap value = .ok result) :
    heap.Holds result := by
  unfold doubleOf at hresult
  split at hresult
  · split at hresult
    · exact Except.ok.inj hresult ▸ .float _
    · cases hresult
  · dsimp only at hresult
    split at hresult
    · exact Except.ok.inj hresult ▸ .float _
    · cases hresult
  · split at hresult
    · exact Except.ok.inj hresult ▸ .float _
    · cases hresult

theorem holdsEntries_dictEntries (hformed : heap.WellFormed) {entries : Entries Value}
    (hentries : dictEntries heap arguments = .ok entries) : heap.HoldsEntries entries := by
  have hkeywords := arguments.holds_keywordList hformed
  unfold dictEntries at hentries
  split at hentries
  · exact Except.ok.inj hentries ▸ heap.holdsEntries_empty.insertAll hkeywords
  · exact Except.ok.inj hentries ▸ (hformed.entries _).insertAll hkeywords
  · cases hentries
  · cases hentries

theorem safe_runType (hformed : heap.WellFormed) (harguments : arguments.Held heap) :
    (runType arguments).Safe heap Heap.Holds := by
  refine .heap_bind ?_
  split
  · rename_i value hpositional _
    have hvalue : heap.Holds value :=
      harguments.positional value (hpositional ▸ List.mem_cons_self)
    exact .pure (Heap.holds_toValue.mpr (hformed.hasClass_typeOf hvalue))
  · have hcreate := ClassCreation.safe_create hformed (heap.hasClass_native .type) rfl harguments
    exact hcreate.mono hformed fun _ _ _ hcreated ↦ hcreated.1
  · trivial

theorem safe_runNative (hformed : heap.WellFormed) (kind : NativeType)
    (harguments : arguments.Held heap) : (runNative kind arguments).Safe heap Heap.Holds := by
  refine .heap_bind ?_
  split
  · exact safe_runType hformed harguments
  · refine .ofFailure_bind fun value hvalue ↦ .ofExcept fun result hresult ↦ ?_
    exact holds_integerOf (Arguments.holds_optional harguments (heap.holds_ofNat 0) hvalue) hresult
  · exact .ofFailure_bind fun value hvalue ↦ .ofExcept fun result hresult ↦ holds_doubleOf hresult
  · refine .ofFailure_bind fun value hvalue ↦ ?_
    have hheld := Arguments.holds_optional harguments (.text "") hvalue
    exact .bind hformed (Operation.safe_textOf hformed hheld) fun _ _ _ _ ↦ .pure (.text _)
  · exact .ofFailure_bind fun value hvalue ↦ .pure (.bool _)
  · refine .ofFailure_bind fun value hvalue ↦ ?_
    have hheld := Arguments.holds_optional harguments (.tuple [] heap.holdsAll_nil) hvalue
    exact .bind hformed (Operation.safe_collect hformed hheld)
      fun newer items _ hitems ↦ .pure (.tuple items hitems)
  · refine .ofFailure_bind fun value hvalue ↦ ?_
    have hheld := Arguments.holds_optional harguments (.tuple [] heap.holdsAll_nil) hvalue
    exact .bind hformed (Operation.safe_collect hformed hheld)
      fun newer items _ hitems ↦ .new hitems fun _ _ hnew ↦ hnew
  · refine .ofExcept_bind fun entries hentries ↦ ?_
    exact .new (holdsEntries_dictEntries hformed hentries) fun _ _ hnew ↦ hnew
  · trivial

theorem safe_runException (heap : Heap) (cls : ExceptionClass) :
    (runException cls arguments).Safe heap Heap.Holds := by
  refine .heap_bind (.ofExcept_bind fun _ _ ↦ ?_)
  split
  · exact .new trivial fun _ _ hnew ↦ hnew
  · exact .new trivial fun _ _ hnew ↦ hnew
  · trivial

end Constructor

/-! ### Building classes -/

namespace BuildClass

variable {metaclass : Value} {keywords : Option Address}

theorem definition_eq_ok {positional : List Value} {result : Definition}
    (hresult : definition heap positional = .ok result) :
    ∃ address, positional = .function address :: .text result.name :: result.bases ∧
      heap.function? address = some result.body := by
  unfold definition at hresult
  split at hresult
  · split at hresult
    · split at hresult
      · rename_i hbody
        cases hresult
        exact ⟨_, rfl, hbody⟩
      · cases hresult
    · cases hresult
    · cases hresult
  · cases hresult

/-- The metaclass asked for and the remaining keywords are there. -/
theorem safe_splitMetaclass (hformed : heap.WellFormed)
    (hkeywords : ∀ address ∈ keywords, heap.Holds (.dict address)) :
    (splitMetaclass keywords).Safe heap fun newer split ↦ newer.HoldsAll split.1 ∧
      ∀ address ∈ split.2, newer.Holds (.dict address) := by
  unfold splitMetaclass
  split
  · exact .pure ⟨heap.holdsAll_none, by simp⟩
  · rename_i address
    refine .heap_bind ?_
    dsimp only
    split
    · exact .pure ⟨heap.holdsAll_none, hkeywords⟩
    · rename_i metaclass hmetaclass
      have hheld := (hformed.entries address).find? hmetaclass
      split
      · exact .pure ⟨Heap.holdsAll_some hheld, by simp⟩
      · refine .effect_bind ((hformed.entries address).erase "metaclass")
          fun newer rest hlater hrest ↦ .pure ⟨?_, ?_⟩
        · exact Heap.holdsAll_some (hheld.grow hlater.grows)
        · exact fun other hother ↦ Option.some.inj hother ▸ hrest

/-- The metaclass to call is there. -/
theorem holds_resolve (hformed : heap.WellFormed) {explicit : Option Value} {bases : List Value}
    (hexplicit : heap.HoldsAll explicit) (hbases : heap.HoldsAll bases)
    (hresolved : resolve heap explicit bases = .ok metaclass) : heap.Holds metaclass := by
  unfold resolve at hresolved
  dsimp only at hresolved
  split at hresolved
  · rename_i asked
    split at hresolved
    · rename_i start hstart
      exact hformed.holds_mostDerived ((hexplicit asked rfl).hasClass hstart) hbases hresolved
    · exact Except.ok.inj hresolved ▸ hexplicit asked rfl
  · refine hformed.holds_mostDerived ?_ hbases hresolved
    cases bases with
    | nil => trivial
    | cons base rest => exact hformed.hasClass_typeOf (hbases base List.mem_cons_self)

theorem safe_prepared? (hformed : heap.WellFormed) {values : List Value}
    (hmetaclass : heap.Holds metaclass) (hvalues : heap.HoldsAll values)
    (hkeywords : ∀ address ∈ keywords, heap.Holds (.dict address)) :
    (prepared? metaclass values keywords).Safe heap
      fun newer answer ↦ newer.HoldsAll answer := by
  unfold prepared?
  split
  · refine .heap_bind ?_
    split
    · rename_i method hmethod
      exact .bind hformed (.call (hformed.lookup hmethod) (Arguments.held_of hvalues hkeywords))
        fun newer answer _ hanswer ↦ .pure (Heap.holdsAll_some hanswer)
    · exact .pure heap.holdsAll_none
  · exact Capability.safe_invoke? hformed "__prepare__" hmetaclass hvalues hkeywords

theorem safe_prepareNamespace (hformed : heap.WellFormed) (metaclassName : String)
    {values : List Value} (hmetaclass : heap.Holds metaclass) (hvalues : heap.HoldsAll values)
    (hkeywords : ∀ address ∈ keywords, heap.Holds (.dict address)) :
    (prepareNamespace metaclass metaclassName values keywords).Safe heap
      fun newer address ↦ newer.Holds (.dict address) := by
  refine .bind hformed (safe_prepared? hformed hmetaclass hvalues hkeywords)
    fun newer answer _ hanswer ↦ ?_
  split
  · exact .effect newer.holdsEntries_empty fun _ _ _ hnew ↦ hnew
  · exact .pure (hanswer _ rfl)
  · exact .heap_bind trivial

theorem safe_runBody (hformed : heap.WellFormed) {body : FunctionRecord} {namespaceDict : Address}
    (hbody : body.Sound heap) (hdict : heap.Holds (.dict namespaceDict)) :
    (runBody body namespaceDict).Safe heap fun newer result ↦ newer.HoldsAll result := by
  refine .bind hformed (Function.safe_localsFor hformed hbody
    (Arguments.held_ofList (heap.holdsAll_nil.cons hdict))) fun newer locals hlater hlocals ↦ ?_
  have hgrown := hbody.grow hlater.grows
  exact .request (.runCode _ _) ⟨⟨hgrown.globals, hlocals, hgrown.closure⟩, hgrown.code⟩

theorem safe_fillClassCell {cls : Value} (hcls : heap.Holds cls) (bodyResult : Value) :
    (fillClassCell bodyResult cls).Safe heap fun _ _ ↦ True := by
  unfold fillClassCell
  split
  · exact .effect hcls fun _ _ _ _ ↦ trivial
  · trivial

/-- The construction of a class is safe. -/
theorem safe_run (hformed : heap.WellFormed) (harguments : arguments.Held heap) :
    (run arguments).Safe heap Heap.Holds := by
  refine .heap_bind (.ofExcept_bind fun ⟨body, name, bases⟩ hdefinition ↦ ?_)
  obtain ⟨address, hpositional, hfunction⟩ := definition_eq_ok hdefinition
  have hheld := harguments.positional
  rw [hpositional] at hheld
  have hbases : heap.HoldsAll bases := fun base hbase ↦ hheld base (by simp [hbase])
  have hbody := hformed.function? hfunction
  refine .bind hformed (safe_splitMetaclass hformed harguments.keywords)
    fun first ⟨explicit, keywords⟩ hfirst ⟨hexplicit, hkeywords⟩ ↦ ?_
  have hbases := hbases.grow hfirst.grows
  have hbody := hbody.grow hfirst.grows
  refine .heap_bind (.ofExcept_bind fun metaclass hmetaclass ↦ ?_)
  have hmetaclass := holds_resolve hfirst.formed hexplicit hbases hmetaclass
  refine .effect_bind trivial fun second _ hsecond _ ↦ ?_
  have hheader : second.HoldsAll [.text name, .tuple bases] :=
    (second.holdsAll_nil.cons (.tuple bases (hbases.grow hsecond.grows))).cons (.text name)
  have hmetaclass := hmetaclass.grow hsecond.grows
  have hbody := hbody.grow hsecond.grows
  have hkeywords : ∀ address ∈ keywords, second.Holds (.dict address) :=
    fun address haddress ↦ (hkeywords address haddress).grow hsecond.grows
  refine .bind hsecond.formed (safe_prepareNamespace hsecond.formed _ hmetaclass hheader hkeywords)
    fun third namespaceDict hthird hdict ↦ ?_
  refine .bind hthird.formed (safe_runBody hthird.formed (hbody.grow hthird.grows) hdict)
    fun fourth result hfourth hresult ↦ ?_
  have hlast := hthird.trans hfourth
  split
  · exact .pure .null
  · have hvalues : fourth.HoldsAll ([.text name, .tuple bases] ++ [.dict namespaceDict]) := by
      intro value hvalue
      rcases List.mem_append.mp hvalue with hfront | hback
      · exact (hheader value hfront).grow hlast.grows
      · exact List.mem_singleton.mp hback ▸ hdict.grow hfourth.grows
    refine .heap_bind (.bind hfourth.formed (.call (hmetaclass.grow hlast.grows)
      (Arguments.held_of hvalues fun address haddress ↦
        (hkeywords address haddress).grow hlast.grows)) fun fifth cls hfifth hcls ↦ ?_)
    refine .bind hfifth.formed (safe_fillClassCell hcls _) fun sixth _ hsixth _ ↦ ?_
    exact .effect_bind trivial fun last _ hlast _ ↦ .pure (hcls.grow (hsixth.trans hlast).grows)

end BuildClass

end Metaobject
