import Metaobject.Proofs.Builtin.ClassNamespace
import Metaobject.Proofs.ClassGraph.MostDerived
import Metaobject.Proofs.ClassGraph.Update

/-!
# Calls of classes

What a call of a class asks for and how it ends, whatever the user code does that it calls. A class
with `__new__` lets it make the object (`Call.WithNew`), and another class makes a new one
(`Call.WithoutNew`). Then an object of the class is initialized (`Call.Initializes`), and the object
is given. Each method is called at most once, with the arguments of the call behind the class or the
object, and whatever cuts a part of the call cuts the call.

Without `__new__` nothing is called before `__init__`, so the classes still have the attributes that
they had at the beginning (`Heap.Extends.lookupUser`), and what was made is of the class.
-/

set_option autoImplicit false
set_option relaxedAutoImplicit false

namespace Metaobject

namespace Heap.Extends

variable {older newer : Heap}

theorem ownAttribute? (hextends : older.Extends newer) (hformed : older.WellFormed) {cls : Address}
    (hcls : (older.userClass? cls).isSome) (name : String) :
    newer.ownAttribute? cls name = older.ownAttribute? cls name := by
  obtain ⟨record, hrecord⟩ := Option.isSome_iff_exists.mp hcls
  obtain ⟨entries, hentries⟩ :=
    Option.isSome_iff_exists.mp (Heap.holds_dict.mp (hformed.namespaceDict hrecord))
  have hkept := Heap.dict?_eq_some_iff.mpr (hextends _ _ (Heap.dict?_eq_some_iff.mp hentries))
  simp only [Heap.ownAttribute?, hextends.growsTo.userClass? hrecord, hrecord, Heap.entries,
    hentries, hkept]

/-- New objects do not change what is found on the classes that are there. -/
theorem lookupUser (hextends : older.Extends newer) (hformed : older.WellFormed)
    (hlater : newer.WellFormed) {cls : Address} (hcls : (older.userClass? cls).isSome)
    (name : String) : newer.lookupUser name cls = older.lookupUser name cls := by
  induction cls using Nat.strongRecOn with
  | ind cls ih =>
    obtain ⟨record, hrecord⟩ := Option.isSome_iff_exists.mp hcls
    rw [hformed.hierarchy.lookupUser_eq (.refl older) hrecord,
      hlater.hierarchy.lookupUser_eq (.refl newer) (hextends.growsTo.userClass? hrecord),
      Heap.ownOr, Heap.ownOr, hextends.ownAttribute? hformed hcls]
    refine congrArg _ (funext fun _ ↦ findSome?_congr fun ancestor habove ↦ ?_)
    cases ancestor with
    | native | exception => rfl
    | user ancestor =>
      refine ih ancestor (hformed.hierarchy.isOlder_ancestor hrecord habove) ?_
      have hclass := (hformed.hierarchy.linear_user hcls).hasClass (.user ancestor)
      rw [Heap.linearization_user hrecord] at hclass
      exact hclass (List.mem_cons_of_mem _ habove)

end Heap.Extends

/-- An object that comes with a dict of its own is new, and leaves what is there. -/
theorem World.createWithDict_eq_value {world final : World} {entries : Entries Value}
    {object : Address → Object} {address : Address}
    (hcreated : world.createWithDict entries object = (.value address, final)) :
    world.heap.get? address = none ∧ world.heap.Extends final.heap := by
  cases hcreated
  constructor
  · rw [Heap.get?_eq_none_iff, Heap.size_allocate]
    exact Nat.le_succ _
  · exact fun other content hcontent ↦ Heap.extends_allocate _ _ other content
      (Heap.extends_allocate _ _ other content hcontent)

/-- Whether a call passes nothing: no positional arguments and no dict of keywords. -/
def Arguments.Absent (arguments : Arguments) : Prop :=
  arguments.count = 0 ∧ arguments.keywords = none

/-! ### Programs without requests -/

section

variable {settings : Settings}
  {respond : {Answer : Type} → Request Answer → World → Ending Answer × World} {world : World}

theorem Program.asked_bind_eq_nil {First Second : Type} {program : Program First}
    {next : First → Program Second} (hprogram : program.asked settings respond world = [])
    (hnext : ∀ result world, (next result).asked settings respond world = []) :
    (program >>= next).asked settings respond world = [] := by
  rw [Program.asked_bind, hprogram, List.nil_append]
  rcases Ending.value_or_cut (program.run settings respond world) with
    ⟨result, hrun⟩ | ⟨cut, hrun⟩ <;> rw [hrun]
  · exact hnext result _
  · exact cut.onward_ending _ _

theorem Program.asked_new (effect : Effect Address) (form : Address → Value) :
    (new effect form).asked settings respond world = [] := by
  show (Program.effect effect >>= fun address ↦ .done (form address)).asked settings respond
    world = []
  exact asked_bind_eq_nil (asked_effect effect world) fun _ _ ↦ rfl

theorem Program.asked_ofExcept {Result : Type} (outcome : Except Exception Result) :
    (ofExcept outcome).asked settings respond world = [] := by
  cases outcome <;> rfl

theorem Program.asked_ofFailure {Result : Type} (outcome : Except Failure Result) :
    (ofFailure outcome).asked settings respond world = [] := by
  cases outcome with
  | ok => rfl
  | error failure => cases failure <;> rfl

theorem ClassCreation.asked_create (metaclass : ClassRef) (arguments : Arguments) :
    (create metaclass arguments).asked settings respond world = [] := by
  unfold create
  split
  · rfl
  · refine Program.asked_bind_eq_nil (Program.asked_ofFailure _) fun values world ↦ ?_
    refine Program.asked_bind_eq_nil (Program.asked_effect .heap world) fun heap world ↦ ?_
    refine Program.asked_bind_eq_nil (Program.asked_ofExcept _) fun definition world ↦ ?_
    exact Program.asked_new (.newClass definition) .userClass

end

namespace Call

section

variable (settings : Settings)
  (respond : {Answer : Type} → Request Answer → World → Ending Answer × World)
  (cls : Address) (arguments : Arguments)

/-! ### What a call of a class amounts to -/

/-- How a call of a class ends whose `__init__` was called for a created object. -/
def initialized (created : Value) (outcome : Ending Value × World) : Ending Value :=
  match outcome.1 with
  | .value result =>
    if result.isNull then .value created
    else .raised (.initializerResult (outcome.2.heap.typeName result))
  | .raised exception => .raised exception
  | .fault message => .fault message
  | .exhausted => .exhausted

/-- How a call of a class goes on from a world in which an object of the class was created. If
lookup finds `__init__`, it is called once, with the object before the arguments, and the call gives
the object if the result is `null`. Without `__init__` the object is given, unless the class is no
metaclass and has no `__new__` by now although there are arguments. -/
structure Initializes (created : Value) (world : World) (asked : List Moment)
    (ending : Ending Value) : Prop where
  found : ∀ method, world.heap.lookupUser "__init__" cls = some method →
    asked = [(Request.call method (arguments.cons created)).moment respond world] ∧
      ending = initialized created (respond (.call method (arguments.cons created)) world)
  accepted : world.heap.lookupUser "__init__" cls = none →
    world.heap.isMetaclass cls ∨ (world.heap.lookupUser "__new__" cls).isSome ∨
      arguments.Absent → asked = [] ∧ ending = .value created
  refused : world.heap.lookupUser "__init__" cls = none → ¬world.heap.isMetaclass cls →
    world.heap.lookupUser "__new__" cls = none → ¬arguments.Absent →
    asked = [] ∧ ending = .raised (.noArguments (world.heap.className (.user cls)))

/-- What a class without `__new__` makes: a metaclass makes a class, whose type is the most derived
one of the metaclass and the types of the bases, and another class makes an object of exactly this
class. -/
def MadeType (heap : Heap) (type : ClassRef) : Prop :=
  if heap.isMetaclass cls then
    ∃ name bases dict, arguments.positional = [.text name, .tuple bases, .dict dict] ∧
      heap.IsMostDerived (heap.candidateSet (.user cls) bases) type
  else type = .user cls

/-- A call of a class without `__new__`, with the world in which it starts, what it asks for, how it
ends, and the heap at the end. A value that it gives is new and of the type that the class makes,
and so of the class or of one below it, and if the class has `__init__`, it was called once, with
the value before the arguments, and gave `null`. Without arguments and only then a class that is no
metaclass can do without `__init__`. If the class that a metaclass makes cannot be created, the call
is cut like that and nothing is called. -/
structure WithoutNew (world : World) (asked : List Moment) (ending : Ending Value)
    (final : Heap) : Prop where
  isNew : ∀ value, ending = .value value → ∃ address, world.heap.get? address = none ∧
    (value = .userClass address ∨ value = .object address)
  madeType : ∀ value, ending = .value value →
    MadeType cls arguments world.heap (final.typeOf value)
  isSubtype : ∀ value, ending = .value value → final.isSubtype (final.typeOf value) (.user cls)
  initialized : ∀ value, ending = .value value →
    ∀ method, world.heap.lookupUser "__init__" cls = some method → ∃ middle,
      asked = [(Request.call method (arguments.cons value)).moment respond middle] ∧
        (respond (.call method (arguments.cons value)) middle).1 = .value .null
  uninitialized : world.heap.lookupUser "__init__" cls = none → asked = []
  absent_iff : ¬world.heap.isMetaclass cls → world.heap.lookupUser "__init__" cls = none →
    ((∃ value, ending = .value value) ↔ arguments.Absent)
  created : ∀ created middle,
    (create cls arguments).run settings respond world = (.value created, middle) →
      Initializes respond cls arguments created middle asked ending
  cut : ∀ cut middle, (create cls arguments).run settings respond world =
    (Cut.ending cut, middle) → asked = [] ∧ ending = cut.ending

/-- A call of a class whose `__new__` is the given one, with the world in which it starts, what it
asks for and how it ends. First `__new__` is called, once, with the class before the arguments. What
it gives that is not of the class is given as it is, and nothing else is called. An object of the
class is initialized. If `__new__` is cut, the call is cut like that and nothing else is called. -/
structure WithNew (method : Value) (world : World) (asked : List Moment)
    (ending : Ending Value) : Prop where
  cut : ∀ cut middle, respond (.call method (arguments.cons (.userClass cls))) world =
    (Cut.ending cut, middle) →
      asked = [(Request.call method (arguments.cons (.userClass cls))).moment respond world] ∧
        ending = cut.ending
  other : ∀ created middle, respond (.call method (arguments.cons (.userClass cls))) world =
    (.value created, middle) → ¬middle.heap.isSubtype (middle.heap.typeOf created) (.user cls) →
      asked = [(Request.call method (arguments.cons (.userClass cls))).moment respond world] ∧
        ending = .value created
  created : ∀ created middle, respond (.call method (arguments.cons (.userClass cls))) world =
    (.value created, middle) → middle.heap.isSubtype (middle.heap.typeOf created) (.user cls) →
      ∃ later, asked =
          (Request.call method (arguments.cons (.userClass cls))).moment respond world :: later ∧
        Initializes respond cls arguments created middle later ending

end

variable {settings : Settings}
  {respond : {Answer : Type} → Request Answer → World → Ending Answer × World}
  {cls : Address} {arguments : Arguments} {world middle : World} {created : Value}
  {earlier : List Moment}

/-! ### Initializing -/

theorem initialized_eq_value {value : Value} {outcome : Ending Value × World}
    (hvalue : initialized created outcome = .value value) :
    value = created ∧ outcome.1 = .value .null := by
  unfold initialized at hvalue
  split at hvalue
  · rename_i result hresult
    split at hvalue
    · rename_i hnull
      obtain rfl : result = .null := by cases result <;> first | rfl | cases hnull
      exact ⟨(Ending.value.inj hvalue).symm, hresult⟩
    · cases hvalue
  all_goals cases hvalue

/-- The initializer that is found is called once, and its result decides. -/
theorem runInitializer_of_found {method : Value}
    (hmethod : world.heap.lookupUser "__init__" cls = some method) :
    (runInitializer cls created arguments).Leads settings respond world
      (Program.call method (arguments.cons created) >>= fun result ↦
        if result.isNull then pure ()
        else Program.heap >>= fun heap ↦ .raise (.initializerResult (heap.typeName result)))
      world := by
  have hread : (runInitializer cls created arguments).Leads settings respond world _ world :=
    Program.leads_heap _ world
  simp only [hmethod] at hread
  exact hread

theorem runInitializer_of_none
    (hnone : world.heap.lookupUser "__init__" cls = none) :
    (runInitializer cls created arguments).Leads settings respond world
      (if !world.heap.isMetaclass cls && (world.heap.lookupUser "__new__" cls).isNone &&
          (arguments.count != 0 || arguments.keywords.isSome) then
        .raise (.noArguments (world.heap.className (.user cls)))
      else pure ()) world := by
  have hread : (runInitializer cls created arguments).Leads settings respond world _ world :=
    Program.leads_heap _ world
  simp only [hnone] at hread
  exact hread

theorem initialized_cut (cut : Cut) (world : World) :
    initialized created (cut.ending, world) = cut.ending := by
  cases cut <;> rfl

/-- When a class refuses arguments that no method of it takes. -/
theorem refuses_iff {heap : Heap} :
    (!heap.isMetaclass cls && (heap.lookupUser "__new__" cls).isNone &&
        (arguments.count != 0 || arguments.keywords.isSome)) = true ↔
      ¬heap.isMetaclass cls ∧ heap.lookupUser "__new__" cls = none ∧ ¬arguments.Absent := by
  simp [Arguments.Absent, and_assoc, Option.isSome_iff_ne_none, imp_iff_not_or]

/-- The initializer that is found decides how the call ends. -/
theorem initialize_of_found {method : Value}
    (hmethod : world.heap.lookupUser "__init__" cls = some method) :
    let program := runInitializer cls created arguments >>= fun _ ↦ pure created
    program.asked settings respond world =
        [(Request.call method (arguments.cons created)).moment respond world] ∧
      (program.run settings respond world).1 =
        initialized created (respond (.call method (arguments.cons created)) world) := by
  intro program
  have hleads := @runInitializer_of_found settings respond cls arguments world created _ hmethod
  rcases Ending.value_or_cut (respond (.call method (arguments.cons created)) world) with
    ⟨result, hanswer⟩ | ⟨cut, hanswer⟩
  · have hcalled := @Program.gives_request settings respond _ _ _ _ _ hanswer
    by_cases hnull : result.isNull = true
    · have hinitializer := hleads.gives (hcalled.bind (by
        rw [if_pos hnull]
        exact Program.gives_done () _))
      have hwhole : program.Gives settings respond world _ created _ :=
        hinitializer.bind (Program.gives_done created _)
      refine ⟨hwhole.asked, ?_⟩
      rw [hwhole.run, hanswer, initialized]
      exact (if_pos hnull).symm
    · have hinitializer := hleads.stops (hcalled.bind_stops (by
        rw [if_neg hnull]
        exact (Program.leads_heap _ _).stops (Program.stops_raise _ _)))
      have hwhole := hinitializer.bind fun _ ↦ pure created
      refine ⟨hwhole.asked, ?_⟩
      rw [hwhole.run, hanswer, initialized]
      exact (if_neg hnull).symm
  · have hcalled := @Program.stops_request settings respond _ _ _ _ _ hanswer
    have hwhole := (hleads.stops (hcalled.bind _)).bind fun _ ↦ pure created
    refine ⟨hwhole.asked, ?_⟩
    rw [hwhole.run, hanswer, initialized_cut]

/-- The part of a call of a class that follows the creation of an object of the class. -/
theorem initializes_runInitializer :
    let program := runInitializer cls created arguments >>= fun _ ↦ pure created
    Initializes respond cls arguments created world (program.asked settings respond world)
      (program.run settings respond world).1 := by
  intro program
  refine ⟨fun method hmethod ↦ initialize_of_found hmethod, fun hnone haccepted ↦ ?_,
    fun hnone hmeta hnew hpresent ↦ ?_⟩
  · have hleads := @runInitializer_of_none settings respond cls arguments world created hnone
    rw [if_neg] at hleads
    · have hwhole : program.Gives settings respond world _ created _ :=
        (hleads.gives (Program.gives_done () _)).bind (Program.gives_done created _)
      exact ⟨hwhole.asked, congrArg Prod.fst hwhole.run⟩
    · rw [refuses_iff]
      rintro ⟨hmeta, hnew, hpresent⟩
      rcases haccepted with hmetaclass | hmethod | habsent
      · exact hmeta hmetaclass
      · exact absurd hmethod (by simp [hnew])
      · exact hpresent habsent
  · have hleads := @runInitializer_of_none settings respond cls arguments world created hnone
    rw [if_pos (refuses_iff.mpr ⟨hmeta, hnew, hpresent⟩)] at hleads
    have hwhole := (hleads.stops (Program.stops_raise _ _)).bind fun _ ↦ pure created
    exact ⟨hwhole.asked, congrArg Prod.fst hwhole.run⟩

/-! ### After the creation -/

/-- What follows the creation of an object in a call of a class. -/
def settle (cls : Address) (arguments : Arguments) (created : Value) : Program Value := do
  let heap ← Program.heap
  if heap.isSubtype (heap.typeOf created) (.user cls) then runInitializer cls created arguments
  return created

theorem construct_eq (cls : Address) (arguments : Arguments) :
    construct cls arguments = create cls arguments >>= settle cls arguments := rfl

theorem settle_of_subtype
    (hsubtype : world.heap.isSubtype (world.heap.typeOf created) (.user cls)) :
    (settle cls arguments created).Leads settings respond world
      (runInitializer cls created arguments >>= fun _ ↦ pure created) world := by
  have hread : (settle cls arguments created).Leads settings respond world _ world :=
    Program.leads_heap _ world
  rw [if_pos hsubtype] at hread
  exact hread

theorem settle_of_other
    (hother : ¬world.heap.isSubtype (world.heap.typeOf created) (.user cls)) :
    (settle cls arguments created).Gives settings respond world [] created world := by
  have hread : (settle cls arguments created).Leads settings respond world _ world :=
    Program.leads_heap _ world
  rw [if_neg hother] at hread
  exact hread.gives (Program.gives_done created world)

theorem initializes_construct
    (hcreate : (create cls arguments).Gives settings respond world earlier created middle)
    (hsubtype : middle.heap.isSubtype (middle.heap.typeOf created) (.user cls)) :
    ∃ later, (construct cls arguments).asked settings respond world = earlier ++ later ∧
      Initializes respond cls arguments created middle later
        ((construct cls arguments).run settings respond world).1 := by
  have hsettles := @settle_of_subtype settings respond cls arguments middle created hsubtype
  refine ⟨_, by rw [construct_eq, hcreate.asked_bind, hsettles.asked], ?_⟩
  rw [construct_eq, hcreate.run_bind, hsettles.run]
  exact initializes_runInitializer

/-! ### With `__new__` -/

theorem create_of_found {method : Value}
    (hmethod : world.heap.lookupUser "__new__" cls = some method) :
    (create cls arguments).Leads settings respond world
      (Program.call method (arguments.cons (.userClass cls))) world := by
  have hread : (create cls arguments).Leads settings respond world _ world :=
    Program.leads_heap _ world
  simp only [hmethod] at hread
  exact hread

theorem withNew_construct {method : Value}
    (hmethod : world.heap.lookupUser "__new__" cls = some method) :
    WithNew respond cls arguments method world
      ((construct cls arguments).asked settings respond world)
      ((construct cls arguments).run settings respond world).1 := by
  have hleads := @create_of_found settings respond cls arguments world method hmethod
  refine ⟨fun cut middle hcut ↦ ?_, fun created middle hvalue hother ↦ ?_,
    fun created middle hvalue hsubtype ↦ ?_⟩
  · have hwhole := (hleads.stops (Program.stops_request hcut)).bind (settle cls arguments)
    exact ⟨hwhole.asked, congrArg Prod.fst hwhole.run⟩
  · have hwhole : (construct cls arguments).Gives settings respond world _ created middle :=
      (hleads.gives (Program.gives_request hvalue)).bind (settle_of_other hother)
    exact ⟨hwhole.asked, congrArg Prod.fst hwhole.run⟩
  · exact initializes_construct (hleads.gives (Program.gives_request hvalue)) hsubtype

/-! ### Without `__new__` -/

section

variable (hnew : world.heap.lookupUser "__new__" cls = none)

include hnew

theorem create_of_none :
    (create cls arguments).Leads settings respond world
      (if world.heap.isMetaclass cls then ClassCreation.create (.user cls) arguments
        else .new (.newInstance cls) .object) world := by
  have hread : (create cls arguments).Leads settings respond world _ world :=
    Program.leads_heap _ world
  simp only [hnew] at hread
  exact hread

/-- What is made is new, and all else is left as it is. -/
theorem exists_of_run_create
    (hrun : (create cls arguments).run settings respond world = (.value created, middle)) :
    (∃ address, world.heap.get? address = none ∧
      (created = .userClass address ∨ created = .object address)) ∧
      world.heap.Extends middle.heap := by
  rw [(create_of_none hnew).run] at hrun
  split at hrun
  · obtain ⟨_, _, _, definition, address, -, -, hcreated, rfl⟩ :=
      ClassCreation.exists_of_run_create hrun
    unfold World.createClass at hcreated
    split at hcreated
    · cases hcreated
    · obtain ⟨hnone, hextends⟩ := World.createWithDict_eq_value hcreated
      exact ⟨⟨address, hnone, Or.inl rfl⟩, hextends⟩
  · obtain ⟨address, hcreated, rfl⟩ := Program.exists_of_run_new hrun
    obtain ⟨hnone, hextends⟩ := World.createWithDict_eq_value hcreated
    exact ⟨⟨address, hnone, Or.inr rfl⟩, hextends⟩

theorem asked_create : (create cls arguments).asked settings respond world = [] := by
  rw [(create_of_none hnew).asked]
  split
  · exact ClassCreation.asked_create (.user cls) arguments
  · exact Program.asked_new (.newInstance cls) .object

end

section

variable {heap : Heap} {type : ClassRef}

theorem MadeType.mem (hmade : MadeType cls arguments heap type) :
    type = .user cls ∨ ∃ name bases dict,
      arguments.positional = [.text name, .tuple bases, .dict dict] ∧
        ∃ base ∈ bases, heap.typeOf base = type := by
  unfold MadeType at hmade
  split at hmade
  · obtain ⟨name, bases, dict, hpositional, hderived⟩ := hmade
    exact (Heap.mem_candidateSet.mp hderived.mem).imp id fun hbase ↦
      ⟨name, bases, dict, hpositional, hbase⟩
  · exact Or.inl hmade

/-- What a class makes is of the class or of one below it. -/
theorem MadeType.isSubtype (hmade : MadeType cls arguments heap type)
    (hformed : heap.WellFormed) (hcls : heap.HasClass (.user cls)) :
    heap.isSubtype type (.user cls) := by
  unfold MadeType at hmade
  split at hmade
  · obtain ⟨name, bases, dict, -, hderived⟩ := hmade
    exact hderived.isSubtype _ (Heap.mem_candidateSet.mpr (Or.inl rfl))
  · rw [hmade]
    exact hformed.hierarchy.isSubtype_refl hcls

theorem MadeType.hasClass (hmade : MadeType cls arguments heap type) (hformed : heap.WellFormed)
    (hcls : heap.HasClass (.user cls)) (harguments : arguments.Held heap) :
    heap.HasClass type := by
  obtain rfl | ⟨name, bases, dict, hpositional, base, hbase, rfl⟩ := hmade.mem
  · exact hcls
  · have htuple : heap.Holds (.tuple bases) :=
      harguments.positional _ (hpositional ▸ List.mem_cons_of_mem _ List.mem_cons_self)
    exact hformed.hasClass_typeOf (Heap.holds_tuple.mp htuple base hbase)

variable (hformed : heap.WellFormed) (hcls : heap.Holds (.userClass cls))
  (harguments : arguments.Held heap) (hnew : heap.lookupUser "__new__" cls = none)

include hformed hcls harguments hnew

theorem safe_create_madeType : (create cls arguments).Safe heap fun newer value ↦
    newer.Holds value ∧ MadeType cls arguments heap (newer.typeOf value) := by
  have hhas : heap.HasClass (.user cls) := Heap.holds_userClass.mp hcls
  refine .heap_bind ?_
  rw [hnew]
  unfold MadeType
  dsimp only
  split
  · rename_i hmetaclass
    refine (ClassCreation.safe_create hformed hhas (Heap.isMetatype_of_isMetaclass hmetaclass)
      harguments).mono hformed fun newer value _ ⟨hheld, name, bases, dict, hsame, hwinner⟩ ↦ ?_
    exact ⟨hheld, name, bases, dict, hsame, Heap.isMostDerived_of_eq_ok hwinner⟩
  · refine ⟨hcls, fun newer address _ ⟨attributes, hinstance⟩ ↦ ⟨?_, ?_⟩⟩
    · exact Heap.holds_object.mpr (Option.isSome_of_eq_some hinstance)
    · simp only [Heap.typeOf, hinstance]

/-- Initializing does not change the type of what a class has made. -/
theorem safe_construct_madeType : (construct cls arguments).Safe heap fun newer value ↦
    newer.Holds value ∧ MadeType cls arguments heap (newer.typeOf value) := by
  refine safe_construct_of_create hformed (fun _ _ hvalue ↦ hvalue.1)
    (fun older newer value hlater ⟨hheld, hmade⟩ ↦ ⟨hheld.grow hlater.grows, ?_⟩) harguments
    (safe_create_madeType hformed hcls harguments hnew)
  rwa [hlater.grows.typeOf hheld]

end

theorem Initializes.eq_of_value {value : Value} {asked : List Moment} {ending : Ending Value}
    (hinitializes : Initializes respond cls arguments created world asked ending)
    (hvalue : ending = .value value) : value = created := by
  cases hlookup : world.heap.lookupUser "__init__" cls with
  | some method =>
    rw [(hinitializes.found method hlookup).2] at hvalue
    exact (initialized_eq_value hvalue).1
  | none =>
    by_cases haccepted : world.heap.isMetaclass cls ∨
        (world.heap.lookupUser "__new__" cls).isSome ∨ arguments.Absent
    · rw [(hinitializes.accepted hlookup haccepted).2] at hvalue
      exact (Ending.value.inj hvalue).symm
    · simp only [not_or, Option.not_isSome_iff_eq_none] at haccepted
      rw [(hinitializes.refused hlookup haccepted.1 haccepted.2.1 haccepted.2.2).2] at hvalue
      cases hvalue

theorem Initializes.asked_eq_nil {asked : List Moment} {ending : Ending Value}
    (hinitializes : Initializes respond cls arguments created world asked ending)
    (hnone : world.heap.lookupUser "__init__" cls = none) : asked = [] := by
  by_cases haccepted : world.heap.isMetaclass cls ∨
      (world.heap.lookupUser "__new__" cls).isSome ∨ arguments.Absent
  · exact (hinitializes.accepted hnone haccepted).1
  · simp only [not_or, Option.not_isSome_iff_eq_none] at haccepted
    exact (hinitializes.refused hnone haccepted.1 haccepted.2.1 haccepted.2.2).1

/-- If the class that a metaclass makes cannot be created, nothing else happens. -/
theorem withoutNew_of_cut (hnew : world.heap.lookupUser "__new__" cls = none) {cut : Cut}
    (hrun : (create cls arguments).run settings respond world = (cut.ending, middle)) :
    WithoutNew settings respond cls arguments world
      ((construct cls arguments).asked settings respond world)
      ((construct cls arguments).run settings respond world).1
      ((construct cls arguments).run settings respond world).2.heap := by
  have hstops : (construct cls arguments).Stops settings respond world [] cut middle :=
    Program.Stops.bind ⟨asked_create hnew, hrun⟩ (settle cls arguments)
  rw [hstops.asked, hstops.run]
  have hnever : ∀ value, (cut.ending : Ending Value) ≠ .value value := cut.ending_ne_value
  refine
    { isNew := fun value hvalue ↦ absurd hvalue (hnever value)
      madeType := fun value hvalue ↦ absurd hvalue (hnever value)
      isSubtype := fun value hvalue ↦ absurd hvalue (hnever value)
      initialized := fun value hvalue ↦ absurd hvalue (hnever value)
      uninitialized := fun _ ↦ rfl
      absent_iff := fun hmeta _ ↦ ?_
      created := fun other middle hother ↦ ?_
      cut := fun other middle hcut ↦ ⟨rfl, congrArg Prod.fst (hrun.symm.trans hcut)⟩ }
  · rw [(create_of_none hnew).run, if_neg hmeta] at hrun
    exact absurd (congrArg Prod.fst hrun).symm (hnever _)
  · exact absurd (congrArg Prod.fst (hrun.symm.trans hother)) (hnever other)

section

variable (hrespond : SoundResponder settings respond) (hformed : world.heap.WellFormed)
  (hsettings : settings.Held world.heap) (hcls : world.heap.Holds (.userClass cls))
  (harguments : arguments.Held world.heap)
  (hnew : world.heap.lookupUser "__new__" cls = none)

include hrespond hformed hsettings hcls harguments hnew

/-- A class without `__new__` that has made something goes on to initialize it, with the same
methods as at the beginning. -/
theorem initializes_of_made
    (hrun : (create cls arguments).run settings respond world = (.value created, middle)) :
    Initializes respond cls arguments created middle
        ((construct cls arguments).asked settings respond world)
        ((construct cls arguments).run settings respond world).1 ∧
      (∀ name, middle.heap.lookupUser name cls = world.heap.lookupUser name cls) ∧
      middle.heap.isMetaclass cls = world.heap.isMetaclass cls := by
  have hhas : (world.heap.userClass? cls).isSome := Heap.holds_userClass.mp hcls
  obtain ⟨hlater, hcreated⟩ := (safe_create_madeType hformed hcls harguments hnew).run hrespond
    hformed hsettings
  rw [hrun] at hlater hcreated
  obtain ⟨hheld, hmade⟩ := hcreated created rfl
  have hsubtype : middle.heap.isSubtype (middle.heap.typeOf created) (.user cls) := by
    rw [hlater.grows.isSubtype (hmade.hasClass hformed hhas harguments)]
    exact hmade.isSubtype hformed hhas
  obtain ⟨later, hasked, hinitializes⟩ := initializes_construct ⟨asked_create hnew, hrun⟩ hsubtype
  refine ⟨hasked ▸ hinitializes, fun name ↦ ?_, ?_⟩
  · exact (exists_of_run_create hnew hrun).2.lookupUser hformed hlater.formed hhas name
  · simp only [Heap.isMetaclass, Heap.storedLinearization, hlater.grows.userClass?_eq hhas]

/-- Whatever the called code does, a call of a class without `__new__` keeps to what such a call
amounts to. -/
theorem withoutNew_construct :
    WithoutNew settings respond cls arguments world
      ((construct cls arguments).asked settings respond world)
      ((construct cls arguments).run settings respond world).1
      ((construct cls arguments).run settings respond world).2.heap := by
  have hhas : (world.heap.userClass? cls).isSome := Heap.holds_userClass.mp hcls
  obtain ⟨hlater, hvalues⟩ := (safe_construct_madeType hformed hcls harguments hnew).run hrespond
    hformed hsettings
  rcases Ending.value_or_cut ((create cls arguments).run settings respond world) with
    ⟨created, hrun⟩ | ⟨cut, hrun⟩
  · obtain ⟨hinitializes, hlookup, hmetaclass⟩ := initializes_of_made hrespond hformed hsettings
      hcls harguments hnew hrun
    refine
      { isNew := fun value hvalue ↦ ?_
        madeType := fun value hvalue ↦ (hvalues value hvalue).2
        isSubtype := fun value hvalue ↦ ?_
        initialized := fun value hvalue method hmethod ↦ ?_
        uninitialized := fun hnone ↦ hinitializes.asked_eq_nil ((hlookup _).trans hnone)
        absent_iff := fun hmeta hnone ↦ ⟨fun ⟨value, hvalue⟩ ↦ by_contra fun hpresent ↦ ?_,
          fun habsent ↦ ⟨created, ?_⟩⟩
        created := fun other middle hother ↦ ?_
        cut := fun cut middle hcut ↦ ?_ }
    · obtain rfl := hinitializes.eq_of_value hvalue
      exact (exists_of_run_create hnew hrun).1
    · obtain ⟨-, hmade⟩ := hvalues value hvalue
      rw [hlater.grows.isSubtype (hmade.hasClass hformed hhas harguments)]
      exact hmade.isSubtype hformed hhas
    · obtain rfl := hinitializes.eq_of_value hvalue
      obtain ⟨hasked, hending⟩ := hinitializes.found method ((hlookup _).trans hmethod)
      exact ⟨_, hasked, (initialized_eq_value (hending.symm.trans hvalue)).2⟩
    · obtain ⟨-, hending⟩ := hinitializes.refused ((hlookup _).trans hnone) (hmetaclass ▸ hmeta)
        ((hlookup _).trans hnew) hpresent
      rw [hvalue] at hending
      cases hending
    · exact (hinitializes.accepted ((hlookup _).trans hnone) (Or.inr (Or.inr habsent))).2
    · rw [hrun] at hother
      cases hother
      exact hinitializes
    · rw [hrun] at hcut
      exact absurd (congrArg Prod.fst hcut).symm (cut.ending_ne_value created)
  · exact withoutNew_of_cut hnew hrun

end

end Call

end Metaobject
