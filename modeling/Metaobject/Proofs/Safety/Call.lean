import Metaobject.Call
import Metaobject.Proofs.Safety.Builtin
import Metaobject.Proofs.Safety.Script

/-!
# Calls are safe

The program of a call is safe when the callable and the arguments are held (`Call.safe_dispatch`).
A call of a class without `__new__` gives an object whose type is that class when the arguments are
a name, bases and a namespace, and the class already is the most derived metaclass of the bases
(`Call.safe_dispatch_typeOf`): a metaclass creates a class, and another class an instance.
-/

set_option autoImplicit false
set_option relaxedAutoImplicit false

namespace Metaobject

variable {heap : Heap} {arguments : Arguments}

theorem BuiltinFunction.safe_run (hformed : heap.WellFormed) (builtin : BuiltinFunction)
    (harguments : arguments.Held heap) : (builtin.run arguments).Safe heap Heap.Holds := by
  cases builtin with
  | buildClass => exact BuildClass.safe_run hformed harguments
  | importModule => exact Import.safe_run hformed
  | abs => exact safe_runAbs hformed harguments
  | chr => exact safe_runChr heap
  | compile => exact Compile.safe_run heap
  | getattr => exact safe_runGetattr hformed harguments
  | hasattr => exact safe_runHasattr hformed harguments
  | len => exact safe_runLen hformed harguments
  | next => exact safe_runNext hformed harguments
  | ord => exact safe_runOrd heap
  | pow => exact safe_runPow hformed harguments
  | print => exact Print.safe_run hformed harguments
  | round => exact safe_runRound hformed harguments
  | setattr => exact safe_runSetattr hformed harguments

theorem Builtin.safe_run (hformed : heap.WellFormed) (builtin : Builtin)
    (harguments : arguments.Held heap) : (builtin.run arguments).Safe heap Heap.Holds := by
  cases builtin with
  | function builtin => exact builtin.safe_run hformed harguments
  | type kind => exact Constructor.safe_runNative hformed kind harguments
  | exception cls => exact Constructor.safe_runException heap cls

namespace Call

theorem safe_runFunction (hformed : heap.WellFormed) {function : FunctionRecord}
    (hfunction : function.Sound heap) (harguments : arguments.Held heap) :
    (runFunction function arguments).Safe heap Heap.Holds := by
  refine .bind hformed (Function.safe_localsFor hformed hfunction harguments)
    fun newer locals hlater hlocals ↦ ?_
  have hgrown := hfunction.grow hlater.grows
  refine .bind hlater.formed (Script.safe_runCode hlater.formed
    ⟨hgrown.globals, hlocals, hgrown.closure⟩ hgrown.code) fun newest result _ hresult ↦ ?_
  cases result with
  | none => exact .pure .null
  | some result => exact .pure (hresult result rfl)

/-! ### Calling classes -/

variable {cls : Address}

theorem safe_create (hformed : heap.WellFormed) (hcls : heap.Holds (.userClass cls))
    (harguments : arguments.Held heap) : (create cls arguments).Safe heap Heap.Holds := by
  refine .heap_bind ?_
  split
  · rename_i method hmethod
    exact .call (hformed.lookupUser hmethod) (harguments.cons hcls)
  · split
    · rename_i hmetaclass
      have hhas : heap.HasClass (.user cls) := Heap.holds_userClass.mp hcls
      exact (ClassCreation.safe_create hformed hhas
        (Heap.isMetatype_of_isMetaclass hmetaclass) harguments).mono hformed
        fun _ _ _ hcreated ↦ hcreated.1
    · exact .new hcls fun _ _ ⟨_, hinstance⟩ ↦
        Heap.holds_object.mpr (Option.isSome_of_eq_some hinstance)

theorem safe_runInitializer (hformed : heap.WellFormed) {created : Value}
    (hcreated : heap.Holds created) (harguments : arguments.Held heap) :
    (runInitializer cls created arguments).Safe heap fun _ _ ↦ True := by
  refine .heap_bind ?_
  split
  · rename_i method hmethod
    refine .bind hformed (.call (hformed.lookupUser hmethod) (harguments.cons hcreated))
      fun newer result _ _ ↦ ?_
    split
    · exact .pure trivial
    · exact .heap_bind trivial
  · split
    · trivial
    · exact .pure trivial

/-- Initializing keeps what lasts of a created object. -/
theorem safe_construct_of_create (hformed : heap.WellFormed) {post : Heap → Value → Prop}
    (hheld : ∀ newer value, post newer value → newer.Holds value)
    (hlasts : ∀ older newer value, older.Later newer → post older value → post newer value)
    (harguments : arguments.Held heap) (hcreate : (create cls arguments).Safe heap post) :
    (construct cls arguments).Safe heap post := by
  refine .bind hformed hcreate fun newer created hlater hcreated ↦ .heap_bind ?_
  split
  · exact .bind hlater.formed (safe_runInitializer hlater.formed (hheld newer created hcreated)
      (harguments.grow hlater.grows))
      fun newest _ hnewest _ ↦ .pure (hlasts newer newest created hnewest hcreated)
  · exact .pure hcreated

theorem safe_construct (hformed : heap.WellFormed) (hcls : heap.Holds (.userClass cls))
    (harguments : arguments.Held heap) : (construct cls arguments).Safe heap Heap.Holds :=
  safe_construct_of_create hformed (fun _ _ hvalue ↦ hvalue)
    (fun _ _ _ hlater hvalue ↦ hvalue.grow hlater.grows) harguments
    (safe_create hformed hcls harguments)

/-! ### Calls -/

/-- The program of a call is safe. -/
theorem safe_dispatch (hformed : heap.WellFormed) {callable : Value}
    (hcallable : heap.Holds callable) (harguments : arguments.Held heap) :
    (dispatch callable arguments).Safe heap Heap.Holds := by
  refine .heap_bind ?_
  split
  · exact Builtin.safe_run hformed _ harguments
  · split
    · rename_i function hfunction
      exact safe_runFunction hformed (hformed.function? hfunction) harguments
    · trivial
  · split
    · rename_i receiver function hmethod
      obtain ⟨hreceiver, hfunction⟩ := hformed.method? hmethod
      exact .call hfunction (harguments.cons hreceiver)
    · trivial
  · exact safe_construct hformed hcallable harguments
  · split
    · rename_i method hmethod
      exact .call (hformed.lookup hmethod) (harguments.cons hcallable)
    · trivial
  · trivial

/-! ### The type of what a class gives -/

section

variable {name : String} {bases : List Value} {dict : Address}
  (hpositional : arguments.positional = [.text name, .tuple bases, .dict dict])

include hpositional

/-- A class without `__new__` creates an object of which it is the type. -/
theorem safe_create_typeOf (hformed : heap.WellFormed) (hcls : heap.Holds (.userClass cls))
    (harguments : arguments.Held heap) (hlookup : heap.lookupUser "__new__" cls = none)
    (hderived : heap.mostDerivedMetaclass (.user cls) bases = .ok (.user cls)) :
    (create cls arguments).Safe heap fun newer value ↦
      newer.Holds value ∧ newer.typeOf value = .user cls := by
  refine .heap_bind ?_
  rw [hlookup]
  dsimp only
  split
  · rename_i hmetaclass
    have hhas : heap.HasClass (.user cls) := Heap.holds_userClass.mp hcls
    refine (ClassCreation.safe_create hformed hhas
      (Heap.isMetatype_of_isMetaclass hmetaclass) harguments).mono hformed
      fun newer value _ ⟨hheld, _, _, _, hsame, hwinner⟩ ↦ ⟨hheld, ?_⟩
    rw [hpositional] at hsame
    obtain ⟨-, rfl, -⟩ : _ ∧ _ ∧ _ := by simpa using hsame
    exact Except.ok.inj (hwinner.symm.trans hderived)
  · refine ⟨hcls, fun newer address _ ⟨attributes, hinstance⟩ ↦ ⟨?_, ?_⟩⟩
    · exact Heap.holds_object.mpr (Option.isSome_of_eq_some hinstance)
    · simp only [Heap.typeOf, hinstance]

/-- Of the native types only `type` takes a name, bases and a namespace. -/
theorem safe_runNative_typeOf (hformed : heap.WellFormed) (kind : NativeType)
    (harguments : arguments.Held heap)
    (hderived : heap.mostDerivedMetaclass (.native kind) bases = .ok (.native kind)) :
    (Constructor.runNative kind arguments).Safe heap fun newer value ↦
      newer.Holds value ∧ newer.typeOf value = .native kind := by
  have hcount : ∀ {name : String} {default value : Value},
      arguments.optional name default ≠ .ok value := by
    intro name default value hvalue
    have hle := Arguments.count_le_of_optional hvalue
    simp [Arguments.count, hpositional] at hle
  refine .heap_bind ?_
  split
  · refine .heap_bind ?_
    split
    · simp_all
    · refine (ClassCreation.safe_create hformed (heap.hasClass_native .type) rfl harguments).mono
        hformed fun newer value _ ⟨hheld, _, _, _, hsame, hwinner⟩ ↦ ⟨hheld, ?_⟩
      rw [hpositional] at hsame
      obtain ⟨-, rfl, -⟩ : _ ∧ _ ∧ _ := by simpa using hsame
      exact Except.ok.inj (hwinner.symm.trans hderived)
    · trivial
  · exact .ofFailure_bind fun value hvalue ↦ absurd hvalue hcount
  · exact .ofFailure_bind fun value hvalue ↦ absurd hvalue hcount
  · exact .ofFailure_bind fun value hvalue ↦ absurd hvalue hcount
  · exact .ofFailure_bind fun value hvalue ↦ absurd hvalue hcount
  · exact .ofFailure_bind fun value hvalue ↦ absurd hvalue hcount
  · exact .ofFailure_bind fun value hvalue ↦ absurd hvalue hcount
  · refine .ofExcept_bind fun entries hentries ↦ ?_
    simp [Constructor.dictEntries, hpositional] at hentries
  · trivial

/-- An exception class takes no name, bases and namespace. -/
theorem safe_runException_typeOf (cls : ExceptionClass) (post : Heap → Value → Prop) :
    (Constructor.runException cls arguments).Safe heap post := by
  refine .heap_bind (.ofExcept_bind fun _ _ ↦ ?_)
  rw [hpositional]
  trivial

/-- What a class gives, called with a name, bases of which it is the most derived metaclass and a
namespace, is of that class unless it has `__new__`. -/
theorem safe_dispatch_typeOf (hformed : heap.WellFormed) {metaclass : Value} {cls : ClassRef}
    (hmetaclass : heap.Holds metaclass) (hcls : metaclass.class? = some cls)
    (harguments : arguments.Held heap) (hlookup : heap.lookup "__new__" cls = none)
    (hderived : heap.mostDerivedMetaclass cls bases = .ok cls) :
    (dispatch metaclass arguments).Safe heap fun newer value ↦
      newer.Holds value ∧ newer.typeOf value = cls := by
  refine .heap_bind ?_
  cases metaclass with
  | builtin builtin =>
    cases builtin with
    | function => cases hcls
    | type kind =>
      cases hcls
      exact safe_runNative_typeOf hpositional hformed kind harguments hderived
    | exception => exact safe_runException_typeOf hpositional _ _
  | userClass address =>
    cases hcls
    refine safe_construct_of_create hformed (fun _ _ hvalue ↦ hvalue.1)
      (fun older newer value hlater ⟨hheld, htype⟩ ↦ ⟨hheld.grow hlater.grows, ?_⟩) harguments
      (safe_create_typeOf hpositional hformed hmetaclass harguments hlookup hderived)
    rw [hlater.grows.typeOf hheld, htype]
  | _ => cases hcls

end

end Call

end Metaobject
