import Metaobject.Proofs.Builtin.BuildClass
import Metaobject.Proofs.ClassGraph.Metaclass
import Metaobject.Proofs.Run.Reachable

/-!
# The metaclass that a construction resolves

A class that `__build_class__` resolves as the metaclass is resolved once more when it is called and
creates the new class. The second resolution finds the class that the first one has found
(`BuildClass.Plan.Settled.mostDerived`), since subtyping between classes does not change. So what
the class gives is of exactly its type, unless it has a `__new__` of its own
(`BuildClass.typeOf_of_callsWithoutNew`).
-/

set_option autoImplicit false
set_option relaxedAutoImplicit false

namespace Metaobject

namespace BuildClass

theorem Filled.growsTo {bodyResult cls : Value} {before after : Heap}
    (hfilled : Filled bodyResult cls before after) : before.GrowsTo after := by
  intro address object hobject
  by_cases hcell : bodyResult = .cell address
  · obtain ⟨hempty, hcontent⟩ := hfilled.cell address hcell
    obtain rfl : object = .cell none :=
      Option.some.inj (hobject.symm.trans (Heap.cell?_eq_some_iff.mp hempty))
    exact ⟨_, Heap.cell?_eq_some_iff.mp hcontent, .cell none (some cls)⟩
  · exact ⟨object, (hfilled.others address hcell).trans hobject, .same object⟩

/-! ### The second resolution -/

section

variable {settings : Settings}
  {respond : {Answer : Type} → Request Answer → World → Ending Answer × World}
  {arguments : Arguments} {world : World} {plan : Plan} {metaclass : ClassRef}

/-- A class that is resolved as the metaclass is the most derived one from a start on: from the
class asked for, or from the type of the first base. -/
theorem resolve_eq_ok {heap : Heap} {explicit : Option Value} {bases : List Value} {value : Value}
    (hresolved : resolve heap explicit bases = .ok value) (hclass : value.class? = some metaclass) :
    ∃ start, heap.mostDerivedMetaclass start bases = .ok metaclass ∧
      ((∃ asked ∈ explicit, asked.class? = some start) ∨
        start = (bases.head?.map heap.typeOf).getD (.native .type)) := by
  have hmap : ∀ start, (heap.mostDerivedMetaclass start bases).map ClassRef.toValue = .ok value →
      heap.mostDerivedMetaclass start bases = .ok metaclass := by
    intro start hstart
    cases hwinner : heap.mostDerivedMetaclass start bases with
    | error => rw [hwinner] at hstart; cases hstart
    | ok winner =>
      rw [hwinner] at hstart
      obtain rfl := Except.ok.inj hstart
      rw [ClassRef.class?_toValue] at hclass
      rw [Option.some.inj hclass]
  unfold resolve at hresolved
  cases explicit with
  | none => exact ⟨_, hmap _ hresolved, Or.inr rfl⟩
  | some asked =>
    cases hasked : asked.class? with
    | some start =>
      simp only [hasked] at hresolved
      exact ⟨start, hmap start hresolved, Or.inl ⟨asked, rfl, hasked⟩⟩
    | none =>
      simp only [hasked] at hresolved
      obtain rfl := Except.ok.inj hresolved
      rw [hasked] at hclass
      cases hclass

section

variable (hsettled : plan.Settled settings respond arguments world)
  (hformed : world.heap.WellFormed) (harguments : arguments.Held world.heap)

include hsettled hformed harguments

/-- The bases and the metaclass asked for are there before the plan is settled. -/
theorem Plan.Settled.held : world.heap.HoldsAll plan.definition.bases ∧
    world.heap.HoldsAll plan.explicit := by
  constructor
  · obtain ⟨address, hpositional, -⟩ := definition_eq_ok hsettled.definition
    intro base hbase
    refine harguments.positional base ?_
    rw [hpositional]
    exact List.mem_cons_of_mem _ (List.mem_cons_of_mem _ hbase)
  · intro asked hasked
    rw [hsettled.explicit] at hasked
    obtain ⟨address, -, hfound⟩ := Option.bind_eq_some_iff.mp hasked
    exact (hformed.entries address).find? hfound

/-- Settling a plan does not change the types of the bases. -/
theorem Plan.Settled.typeOf_base {base : Value} (hbase : base ∈ plan.definition.bases) :
    plan.world.heap.typeOf base = world.heap.typeOf base ∧
      world.heap.HasClass (world.heap.typeOf base) := by
  have hheld := (hsettled.held hformed harguments).1 base hbase
  exact ⟨hsettled.unchanged.growsTo.typeOf hheld, hformed.hasClass_typeOf hheld⟩

/-- A class that is resolved as the metaclass is there before the plan is settled. -/
theorem Plan.Settled.hasClass (hclass : plan.metaclass.class? = some metaclass) :
    world.heap.HasClass metaclass := by
  obtain ⟨start, hwinner, hstart⟩ := resolve_eq_ok hsettled.metaclass hclass
  have htype : ∀ base ∈ plan.definition.bases,
      world.heap.HasClass (plan.world.heap.typeOf base) := by
    intro base hbase
    obtain ⟨hsame, hhas⟩ := hsettled.typeOf_base hformed harguments hbase
    rw [hsame]
    exact hhas
  obtain rfl | ⟨base, hbase, rfl⟩ := Heap.mem_of_mostDerived hwinner
  · obtain ⟨asked, hasked, hcls⟩ | rfl := hstart
    · exact ((hsettled.held hformed harguments).2 asked hasked).hasClass hcls
    · cases hhead : plan.definition.bases with
      | nil => trivial
      | cons base rest => exact htype base (hhead ▸ List.mem_cons_self)
  · exact htype base hbase

/-- A class that is resolved as the metaclass is resolved again, at that time and later: it is a
subtype of itself and of the types of the bases, and subtyping does not change. -/
theorem Plan.Settled.mostDerived (hclass : plan.metaclass.class? = some metaclass) {heap : Heap}
    (hlater : world.heap.Later heap) :
    heap.mostDerivedMetaclass metaclass plan.definition.bases = .ok metaclass := by
  have hmetaclass := hsettled.hasClass hformed harguments hclass
  obtain ⟨start, hwinner, -⟩ := resolve_eq_ok hsettled.metaclass hclass
  refine Heap.mostDerivedMetaclass_start
    (hlater.formed.hierarchy.isSubtype_refl (hlater.grows.hasClass hmetaclass)) ?_
  intro base hbase
  have hheld := (hsettled.held hformed harguments).1 base hbase
  have hsubtype := Heap.isSubtype_of_mostDerived hwinner hbase
  rw [hsettled.unchanged.growsTo.isSubtype hmetaclass,
    (hsettled.typeOf_base hformed harguments hbase).1] at hsubtype
  rwa [hlater.grows.isSubtype hmetaclass, hlater.grows.typeOf hheld]

end

end

end BuildClass

/-! ### Calls with a value -/

/-- The world in which the program of a call starts: one level deeper, and after the report of a
call of a builtin function. -/
def World.entered (world : World) (callable : Value) (arguments : Arguments) : World :=
  let inner := { world with depth := world.depth + 1 }
  match callable with
  | .builtin (.function builtin) =>
    inner.observe (.builtinCall builtin.name arguments.count inner.depth)
  | _ => inner

theorem World.heap_entered (world : World) (callable : Value) (arguments : Arguments) :
    (world.entered callable arguments).heap = world.heap := by
  unfold World.entered
  split <;> rfl

theorem World.deeper_eq_value {Result : Type} {settings : Settings} {world after : World}
    {part : World → Ending Result × World} {result : Result}
    (hdeeper : world.deeper settings part = (.value result, after)) :
    ∃ final, part { world with depth := world.depth + 1 } = (.value result, final) ∧
      final.heap = after.heap := by
  unfold World.deeper at hdeeper
  split at hdeeper
  · cases hdeeper
  · obtain ⟨hending, rfl⟩ := Prod.mk.inj hdeeper
    exact ⟨_, Prod.ext hending rfl, rfl⟩

/-- A call that gives a value has run its program to this value. -/
theorem Request.answer_call_eq_value {settings : Settings} {patience : Nat} {callable value : Value}
    {arguments : Arguments} {world after : World}
    (hanswer : Request.answer settings (patience + 1) (.call callable arguments) world =
      (.value value, after)) :
    ∃ final, (Call.dispatch callable arguments).run settings (Request.answer settings patience)
        (world.entered callable arguments) = (.value value, final) ∧ final.heap = after.heap := by
  obtain ⟨left, hleft, hheap⟩ := World.deeper_eq_value hanswer
  unfold Call.run at hleft
  dsimp only at hleft
  split at hleft
  · obtain ⟨hending, rfl⟩ := Prod.mk.inj hleft
    exact ⟨_, Prod.ext hending rfl, hheap⟩
  · rename_i hother
    refine ⟨left, ?_, hheap⟩
    unfold World.entered
    dsimp only
    split
    · exact absurd rfl (hother _)
    · exact hleft

/-- What a class without `__new__` gives for a name, bases of which it is the most derived metaclass
and a namespace is of its type. -/
theorem Request.typeOf_of_call {settings : Settings} {patience : Nat} {callable value : Value}
    {arguments : Arguments} {world after : World} {metaclass : ClassRef} {name : String}
    {bases : List Value} {dict : Address}
    (hpositional : arguments.positional = [.text name, .tuple bases, .dict dict])
    (hformed : world.heap.WellFormed) (hsettings : settings.Held world.heap)
    (hcallable : world.heap.Holds callable) (hclass : callable.class? = some metaclass)
    (harguments : arguments.Held world.heap)
    (hlookup : world.heap.lookup "__new__" metaclass = none)
    (hderived : world.heap.mostDerivedMetaclass metaclass bases = .ok metaclass)
    (hvalue : Request.answer settings patience (.call callable arguments) world =
      (.value value, after)) :
    after.heap.Holds value ∧ after.heap.typeOf value = metaclass := by
  cases patience with
  | zero => cases hvalue
  | succ patience =>
    obtain ⟨final, hrun, hheap⟩ := Request.answer_call_eq_value hvalue
    have hsafe := Call.safe_dispatch_typeOf hpositional hformed hcallable hclass harguments hlookup
      hderived
    rw [← world.heap_entered callable arguments] at hformed hsettings hsafe
    obtain ⟨-, hresult⟩ := hsafe.run (Request.answer_sound settings patience) hformed hsettings
    rw [hrun] at hresult
    exact hheap ▸ hresult value rfl

/-! ### The type of what a construction gives -/

/-- The class that is called at a moment, if the call of a class is requested. -/
def Moment.calledClass? (moment : Moment) : Option ClassRef :=
  match moment.action with
  | .asks (.call callable _) => callable.class?
  | _ => none

namespace BuildClass

/-- Whether a construction resolves a class as the metaclass and has called it last, when the class
had no `__new__`. The last request of a construction that ends with a value is the call of the
metaclass, or the running of the body if it had no result. -/
def CallsWithoutNew (settings : Settings)
    (respond : {Answer : Type} → Request Answer → World → Ending Answer × World)
    (arguments : Arguments) (world : World) (metaclass : ClassRef) : Prop :=
  ∃ (plan : Plan) (call : Moment),
    plan.Settled settings respond arguments world ∧ plan.metaclass.class? = some metaclass ∧
      ((run arguments).asked settings respond world).getLast? = some call ∧
        call.calledClass? = some metaclass ∧
          call.before.heap.lookup "__new__" metaclass = none

variable {settings : Settings} {patience : Nat} {arguments : Arguments} {world : World}
  {metaclass : ClassRef}

/-- What a construction gives that calls the class it has resolved as the metaclass is of this
class. The class creates the value, as the second resolution finds the class again, and the value
keeps its type while the cell of the body is filled. -/
theorem typeOf_of_callsWithoutNew (hformed : world.heap.WellFormed)
    (hsettings : settings.Held world.heap) (harguments : arguments.Held world.heap)
    (hcalls : CallsWithoutNew settings (Request.answer settings patience) arguments world
      metaclass) {value : Value} {final : World}
    (hrun : (run arguments).run settings (Request.answer settings patience) world =
      (.value value, final)) :
    final.heap.typeOf value = metaclass := by
  obtain ⟨plan, call, hsettled, hclass, hlast, hcalled, hlookup⟩ := hcalls
  have hfollows := @Plan.follows settings (Request.answer settings patience) plan
  have hleads := run_leads hsettled
  rw [← hleads.asked, ← hleads.run, hrun] at hfollows
  have hsound := (safe_run hformed harguments).asked (Request.answer_sound settings patience)
    hformed hsettings call (List.mem_of_getLast? hlast)
  generalize (run arguments).asked settings (Request.answer settings patience) world = asked
    at hlast hfollows
  generalize houtcome : (Ending.value value, final) = outcome at hfollows
  cases hfollows with
  | unprepared cut | unbound _ _ cut | bodyCut _ _ cut | callCut _ _ _ _ cut =>
    exact absurd (congrArg Prod.fst houtcome).symm (cut.ending_ne_value value)
  | occupied => cases houtcome
  | unbuilt _ body _ hbody =>
    obtain ⟨_, locals, -, -, hrequest⟩ := hbody
    obtain rfl : body.moment _ = call := by simpa using hlast
    rw [Stage.moment, hrequest] at hcalled
    cases hcalled
  | built _ _ cls _ stage after heap hcall hcls hfilled =>
    cases houtcome
    obtain rfl : stage.moment _ = call := by simpa using hlast
    have hderived := hsettled.mostDerived hformed harguments hclass hsound.before
    obtain ⟨hcallable, hpassed⟩ := hsound.admissible _ (congrArg Action.asks hcall.request)
    rw [Stage.outcome, hcall.request] at hcls
    obtain ⟨hheld, htype⟩ := Request.typeOf_of_call rfl hsound.before.formed
      (hsettings.grow hsound.before.grows) hcallable hclass hpassed hlookup hderived hcls
    exact (hfilled.growsTo.typeOf hheld).trans htype

end BuildClass

end Metaobject
