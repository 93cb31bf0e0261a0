import Metaobject.Proofs.Session.Trace
import Metaobject.Proofs.Heap.Sparing
import Metaobject.Proofs.Obedience.Call

/-!
# Who writes to a dict

An effect changes the entries of at most one dict (`Effect.target?`): a variable is bound in a
scope, an attribute is stored in the dict of its holder, or an entry is set or removed. All other
dicts are spared, over a single effect (`Effect.spares_answer`) and over every history
(`Linked.spares`).

Variables are bound by scripts only, and a script binds them in the scopes of its frame. So whatever
dict a variable is bound in during the answer to a request, a request was made that runs code with
this dict for its locals or globals (`Request.exists_uses`). A dict is therefore spared by a request
if no frame in use has it, no attribute is stored in it, and no entry of it is set or removed
(`Request.spares`).
-/

set_option autoImplicit false
set_option relaxedAutoImplicit false

namespace Metaobject

/-! ### The dict that an effect changes -/

/-- The scope in which an effect binds a variable. -/
def Effect.bound? : {Answer : Type} → Effect Answer → Option Address
  | _, .bindName scope _ _ => some scope
  | _, _ => none

/-- The dict in which an effect stores an attribute: the attribute dict of its holder. -/
def Effect.stored? (heap : Heap) : {Answer : Type} → Effect Answer → Option Address
  | _, .storeAttribute holder _ _ => heap.attributeDict? holder
  | _, _ => none

/-- The dict of which an effect sets or removes an entry directly. -/
def Effect.edited? : {Answer : Type} → Effect Answer → Option Address
  | _, .insertEntry dict _ _ | _, .eraseEntry dict _ => some dict
  | _, _ => none

/-- The dict whose entries an effect changes. -/
def Effect.target? (heap : Heap) {Answer : Type} (effect : Effect Answer) : Option Address :=
  effect.bound?.or ((effect.stored? heap).or effect.edited?)

section

variable {spared : Address → Prop}

theorem World.spares_create (world : World) {object : Object}
    (hobject : object.attributeDict? = none) :
    Heap.Spares spared world.heap (world.create object).2.heap :=
  (Heap.Spares.refl spared world.heap).allocate_bare hobject

/-- A new object with a dict of its own has a new dict. -/
theorem World.spares_createWithDict (world : World) (entries : Entries Value)
    {object : Address → Object} (hobject : ∀ dict, (object dict).attributeDict? = some dict) :
    Heap.Spares spared world.heap (world.createWithDict entries object).2.heap := by
  have hdict : Heap.Spares spared world.heap (world.heap.allocate (.dict entries)) :=
    (Heap.Spares.refl spared world.heap).allocate_bare rfl
  refine hdict.allocate fun dict howned ↦ ?_
  rw [hobject] at howned
  exact Nat.le_of_eq (Option.some.inj howned)

theorem World.spares_emit (world : World) (operation : Output → Except Exception Output) :
    Heap.Spares spared world.heap (world.emit operation).2.heap := by
  unfold World.emit
  split <;> exact .refl spared _

/-- An effect spares every dict but the one that it changes. -/
theorem Effect.spares_answer (settings : Settings) {Answer : Type} (effect : Effect Answer)
    (world : World)
    (htarget : ∀ dict, effect.target? world.heap = some dict → ¬spared dict) :
    Heap.Spares spared world.heap (effect.answer settings world).2.heap := by
  cases effect with
  | newList | newDict | newCell | newIterator | newFunction | newMethod | newCode | newException =>
    exact world.spares_create rfl
  | newClass definition =>
    simp only [answer, World.createClass]
    split
    · exact .refl spared _
    · exact world.spares_createWithDict _ fun _ ↦ rfl
  | newInstance | newModule => exact world.spares_createWithDict _ fun _ ↦ rfl
  | bindName scope name content => exact Heap.spares_updateDict (htarget scope rfl) _
  | storeAttribute holder name content =>
    simp only [answer, World.storeAttribute]
    cases hdict : world.heap.attributeDict? holder with
    | some dict =>
      have hstored : (storeAttribute holder name content).target? world.heap = some dict := by
        simp [target?, bound?, stored?, hdict]
      exact Heap.spares_updateDict (htarget dict hstored) _
    | none => exact .refl spared _
  | insertEntry dict key content => exact Heap.spares_updateDict (htarget dict rfl) _
  | eraseEntry dict key => exact Heap.spares_updateDict (htarget dict rfl) _
  | appendItem list item => exact Heap.spares_append item
  | setCell cell content => exact Heap.spares_setCell content
  | fillCell cell content =>
    simp only [answer, World.fillCell]
    split
    · exact Heap.spares_setCell content
    · exact .refl spared _
  | takeItem iterator =>
    simp only [answer]
    split
    · exact .refl spared _
    · exact Heap.spares_advance _
  | takeAll iterator => exact Heap.spares_advance []
  | permitBits bits =>
    simp only [answer]
    split <;> exact .refl spared _
  | write text => exact world.spares_emit fun output ↦ output.write text
  | flush => exact world.spares_emit Output.flush
  | importModule request =>
    simp only [answer, World.importModule]
    split
    · exact .refl spared _
    · split <;> exact .refl spared _
  | compileSource request =>
    simp only [answer, World.compileSource]
    split
    · exact .refl spared _
    · split
      · exact .refl spared _
      · exact (Heap.Spares.refl spared world.heap).allocate_bare rfl
  | enterBody code =>
    simp only [answer, World.enterBody]
    split
    · exact .refl spared _
    · split
      · exact .refl spared _
      · split <;> exact .refl spared _
  | heap | depth | reportMetaclass | reportClass => exact .refl spared _

end

/-- What an effect is asked at a moment, if the moment is one of an effect. -/
def Moment.ofEffect {Result : Type} (moment : Moment)
    (ask : {Answer : Type} → Effect Answer → Option Result) : Option Result :=
  match moment.action with
  | .performs effect => ask effect
  | _ => none

theorem Moment.ofEffect_eq {Result : Type} {moment : Moment} {Answer : Type}
    {effect : Effect Answer} (heffect : moment.action = .performs effect)
    (ask : {Answer : Type} → Effect Answer → Option Result) : moment.ofEffect ask = ask effect := by
  unfold ofEffect
  rw [heffect]

/-- The scope in which a variable is bound at a moment. -/
def Moment.bound? (moment : Moment) : Option Address := moment.ofEffect Effect.bound?

/-- The dict in which an attribute is stored at a moment. -/
def Moment.stored? (moment : Moment) : Option Address :=
  moment.ofEffect (Effect.stored? moment.before.heap)

/-- The dict of which an entry is set or removed directly at a moment. -/
def Moment.edited? (moment : Moment) : Option Address := moment.ofEffect Effect.edited?

/-- The dict whose entries are changed at a moment. -/
def Moment.target? (moment : Moment) : Option Address :=
  moment.ofEffect (Effect.target? moment.before.heap)

theorem Moment.target?_eq (moment : Moment) :
    moment.target? = moment.bound?.or (moment.stored?.or moment.edited?) := by
  unfold target? bound? stored? edited? ofEffect
  split <;> rfl

/-- A moment spares every dict but the one that is changed at it. -/
theorem Moment.IsStep.spares {settings : Settings} {spared : Address → Prop} {moment : Moment}
    (hstep : moment.IsStep settings)
    (htarget : ∀ dict, moment.target? = some dict → ¬spared dict) :
    Heap.Spares spared moment.before.heap moment.after.heap := by
  obtain ⟨action, before, after⟩ := moment
  cases action with
  | performs effect =>
    have hafter : after = (effect.answer settings before).2 := hstep
    exact hafter ▸ effect.spares_answer settings before htarget
  | asks | refuses =>
    have hafter : after = before := hstep
    exact hafter ▸ .refl spared before.heap
  | enters =>
    have hafter : after = { before with depth := before.depth + 1 } := hstep
    exact hafter ▸ .refl spared before.heap
  | leaves =>
    have hafter : after = { before with depth := before.depth - 1 } := hstep
    exact hafter ▸ .refl spared before.heap
  | reports event =>
    have hafter : after = before.observe event := hstep
    exact hafter ▸ .refl spared before.heap

/-- A history spares every dict but those that are changed in it. -/
theorem Linked.spares {settings : Settings} {spared : Address → Prop} {world final : World}
    {moments : List Moment} (hlinked : Linked settings world moments final)
    (htargets : ∀ moment ∈ moments, ∀ dict, moment.target? = some dict → ¬spared dict) :
    Heap.Spares spared world.heap final.heap := by
  induction hlinked with
  | nil world => exact .refl spared world.heap
  | cons moment hstep _ ih =>
    obtain ⟨htarget, hrest⟩ := List.forall_mem_cons.mp htargets
    exact (hstep.spares htarget).trans (ih hrest)

/-- In every history the objects keep their attribute dicts. -/
theorem Linked.spares_none {settings : Settings} {world final : World} {moments : List Moment}
    (hlinked : Linked settings world moments final) :
    Heap.Spares (fun _ ↦ False) world.heap final.heap :=
  hlinked.spares fun _ _ _ _ ↦ not_false

/-! ### Frames in use -/

/-- The local scope of a call of a user function, if the arguments fit: for a class body the
namespace that it is given, and otherwise the dict that is created next. -/
def Function.scope? (heap : Heap) (function : FunctionRecord) (arguments : Arguments) :
    Option Address :=
  (heap.code? function.code).bind fun code ↦
    if code.isClassBody then
      match arguments.positional, arguments.keywords with
      | [.dict namespaceDict], none => some namespaceDict
      | _, _ => none
    else
      (Arguments.bindParameters function.name code.parameters function.defaults
        arguments.positional (arguments.keywordList heap)).toOption.map fun _ ↦ heap.size

/-- The frame in which a request runs code, if it is one to run code or to call a user function with
arguments that fit. -/
def Request.frame? (heap : Heap) : {Answer : Type} → Request Answer → Option Frame
  | _, .runCode frame _ => some frame
  | _, .call (.function address) arguments =>
    (heap.function? address).bind fun function ↦
      (Function.scope? heap function arguments).map fun locals ↦
        ⟨function.globals, locals, function.closure⟩
  | _, _ => none

/-- Whether a dict is the locals or the globals of a frame. -/
def Frame.has (frame : Frame) (scope : Address) : Bool :=
  frame.locals == scope || frame.globals == scope

/-- Whether code is run for a request in a frame that has a dict: scripts can be run, the depth
limit is not reached, and the frame has the dict for its locals or globals. -/
def Request.uses (settings : Settings) {Answer : Type} (request : Request Answer) (world : World)
    (scope : Address) : Bool :=
  settings.runsScripts && decide (world.depth < settings.limits.maxDepth) &&
    (request.frame? world.heap).any (·.has scope)

/-- Whether a request is made that runs code in a frame that has a dict. -/
def Moment.uses (settings : Settings) (moment : Moment) (scope : Address) : Bool :=
  match moment.action with
  | .asks request => request.uses settings moment.before scope
  | _ => false

/-! ### What programs bind and edit -/

/-- The policy under which variables are bound in some scopes, and entries of dicts are set and
removed or not. Everything else is permitted. -/
def Policy.writing (binds : Address → Prop) (edits : Prop) : Policy where
  reports := True
  drains _ := True
  runs := True
  binds := binds
  edits := edits
  writes := True
  faults _ := True
  marks _ := True
  guards _ _ := True
  faults_of_mark _ _ := trivial
  guards_of_mark _ _ _ _ := trivial

namespace Policy

theorem writing_coversScripts (binds : Address → Prop) : (writing binds True).CoversScripts where
  refusals _ _ := trivial
  misuse := trivial
  drains _ _ := trivial
  runs := trivial
  edits := trivial
  probe _ := trivial
  next _ := trivial

/-- The policy under which no variable is bound and no entry of a dict is set or removed. -/
def reserved : Policy := writing (fun _ ↦ False) False

/-- Only user functions bind variables, set entries and remove them. -/
theorem reserved_coversCall {callable : Value} (hother : ∀ address, callable ≠ .function address)
    (arguments : Arguments) : reserved.CoversCall callable arguments where
  misuse := trivial
  function address hfunction := absurd hfunction (hother address)
  buildClass _ := trivial
  print _ := trivial
  collect _ _ _ := trivial
  getattr _ _ _ _ _ := trivial
  hasattr _ _ _ _ := trivial
  next _ _ _ _ := trivial

end Policy

/-- Where a policy permits an effect, it permits the binding in its scope. -/
theorem Effect.Permitted.binds {policy : Policy} {Answer : Type} {effect : Effect Answer}
    (hpermitted : effect.Permitted policy) {scope : Address} (hbound : effect.bound? = some scope) :
    policy.binds scope := by
  cases effect with
  | bindName =>
    obtain rfl := Option.some.inj hbound
    exact hpermitted
  | _ => cases hbound

/-- A reserved effect binds no variable and edits no dict. -/
theorem Effect.Permitted.plain {Answer : Type} {effect : Effect Answer}
    (hpermitted : effect.Permitted .reserved) : effect.bound? = none ∧ effect.edited? = none := by
  cases effect with
  | bindName | insertEntry | eraseEntry => exact absurd hpermitted id
  | _ => exact ⟨rfl, rfl⟩

/-- Whether a moment belongs to a request for which all that happens is among some moments. -/
def Moment.BelongsTo (inside : {Answer : Type} → Request Answer → World → List Moment)
    (moments : List Moment) (moment : Moment) : Prop :=
  ∃ (Answer : Type) (request : Request Answer) (reached : World),
    moment ∈ inside request reached ∧ inside request reached ⊆ moments

section

variable {settings : Settings}
  {respond : {Answer : Type} → Request Answer → World → Ending Answer × World}
  {inside : {Answer : Type} → Request Answer → World → List Moment} {world : World}
  {moment : Moment}

theorem Moment.BelongsTo.mono {moments more : List Moment}
    (hbelongs : moment.BelongsTo inside moments) (hsubset : moments ⊆ more) :
    moment.BelongsTo inside more := by
  obtain ⟨Answer, request, reached, hinside, hamong⟩ := hbelongs
  exact ⟨Answer, request, reached, hinside, List.Subset.trans hamong hsubset⟩

/-- What happens in a program that obeys a policy is an effect that the policy permits, or it
happens for a request of the program. -/
theorem Program.Obeys.arises {policy : Policy} (hmarks : ∀ mark, policy.marks mark)
    {Result : Type} {program : Program Result} (hobeys : program.Obeys policy)
    (hmoment : moment ∈ program.history settings respond inside world) :
    (∃ (Other : Type) (effect : Effect Other),
        moment.action = .performs effect ∧ effect.Permitted policy) ∨
      moment.BelongsTo inside (program.history settings respond inside world) := by
  induction program generalizing world with
  | done | raise | fault => exact absurd hmoment List.not_mem_nil
  | perform effect next ih =>
    obtain rfl | hlater := List.mem_cons.mp hmoment
    · exact Or.inl ⟨_, effect, rfl, hobeys.1⟩
    · obtain ⟨answer, hanswer, hnext⟩ := Ending.mem_onward.mp hlater
      have harises := ih answer (hobeys.2 answer (effect.answers_of_marks hmarks answer)) hnext
      exact harises.imp id (·.mono (suffix_history_perform (Prod.ext hanswer rfl)).subset)
  | ask request next ih =>
    obtain hinside | hlater := List.mem_append.mp hmoment
    · exact Or.inr ⟨_, request, world, hinside, List.subset_append_left _ _⟩
    · obtain ⟨answer, hanswer, hnext⟩ := Ending.mem_onward.mp hlater
      have harises := ih answer (hobeys.2 answer) hnext
      exact harises.imp id (·.mono (suffix_history_ask (Prod.ext hanswer rfl)).subset)
  | attempt handler body next ihbody ihnext =>
    obtain hbody | hlater := List.mem_append.mp hmoment
    · exact (ihbody hobeys.2.1 hbody).imp id (·.mono (List.subset_append_left _ _))
    · obtain ⟨result, honward⟩ := Ending.exists_handledOnward_eq hlater
      rw [honward] at hlater
      refine (ihnext result (hobeys.2.2 result) hlater).imp id (·.mono ?_)
      rw [history, honward]
      exact List.subset_append_right _ _

/-- At what happens in a reserved program no variable is bound and no dict is edited, but for
requests of the program. -/
theorem Program.Obeys.belongs {Result : Type} {program : Program Result}
    (hobeys : program.Obeys .reserved)
    (hmoment : moment ∈ program.history settings respond inside world) :
    moment.bound? = none ∧ moment.edited? = none ∨
      moment.BelongsTo inside (program.history settings respond inside world) := by
  refine (hobeys.arises (fun _ ↦ trivial) hmoment).imp ?_ id
  rintro ⟨Other, effect, heffect, hpermitted⟩
  rw [Moment.bound?, Moment.edited?, Moment.ofEffect_eq heffect, Moment.ofEffect_eq heffect]
  exact hpermitted.plain

/-- The local scope of a call is the one that its arguments give. -/
theorem Function.scope?_of_run {function : FunctionRecord} {arguments : Arguments}
    {locals : Address} {final : World}
    (hrun : (localsFor function arguments).run settings respond world = (.value locals, final)) :
    scope? world.heap function arguments = some locals := by
  obtain ⟨heap, reached, hheap, hrun⟩ := Program.exists_of_run_bind hrun
  cases hheap
  unfold scope?
  cases hcode : world.heap.code? function.code with
  | none =>
    rw [hcode] at hrun
    cases hrun
  | some code =>
    simp only [hcode, Option.bind_some] at hrun ⊢
    by_cases hbody : code.isClassBody = true
    · rw [if_pos hbody] at hrun ⊢
      obtain ⟨positional, keywords⟩ := arguments
      dsimp only at hrun ⊢
      split at hrun
      · cases hrun
        rfl
      · cases hrun
    · rw [if_neg hbody] at hrun ⊢
      obtain ⟨bound, middle, hbound, hrun⟩ := Program.exists_of_run_bind hrun
      cases hfits : Arguments.bindParameters function.name code.parameters function.defaults
        arguments.positional (arguments.keywordList world.heap) with
      | error exception =>
        rw [hfits] at hbound
        cases hbound
      | ok bound =>
        rw [hfits] at hbound
        cases hbound
        cases hrun
        rfl

/-- Where a script binds a variable, it does so in its frame, or for a request that it makes. -/
theorem Script.exists_of_binds {frame : Frame} {code : Address}
    (hmoment : moment ∈ (runCode frame code).history settings respond inside world)
    {scope : Address} (hbound : moment.bound? = some scope) :
    settings.runsScripts = true ∧ frame.has scope = true ∨
      moment.BelongsTo inside ((runCode frame code).history settings respond inside world) := by
  cases hscripts : settings.runsScripts with
  | false =>
    -- Without scripts nothing happens but that the code is refused.
    obtain rfl | hlater := List.mem_cons.mp hmoment
    · cases hbound
    · obtain ⟨statements, hanswer, -⟩ := Ending.mem_onward.mp hlater
      simp only [Effect.answer, World.enterBody, hscripts] at hanswer
      split at hanswer <;> cases hanswer
  | true =>
    have hframe : (Policy.writing (fun scope ↦ frame.has scope = true) True).BindsIn frame := by
      simp [Policy.BindsIn, Policy.writing, Frame.has]
    have hobeys := Script.obeys_runCode (Policy.writing_coversScripts _) hframe code
    obtain ⟨Answer, effect, heffect, hpermitted⟩ | hrequest :=
      hobeys.arises (fun _ ↦ trivial) hmoment
    · rw [Moment.bound?, Moment.ofEffect_eq heffect] at hbound
      exact Or.inl ⟨rfl, hpermitted.binds hbound⟩
    · exact Or.inr hrequest

/-- Where the program of a user function binds a variable, it does so in the frame of the call, or
for a request that it makes. -/
theorem Call.exists_of_runFunction {function : FunctionRecord} {arguments : Arguments}
    (hmoment : moment ∈ (runFunction function arguments).history settings respond inside world)
    {scope : Address} (hbound : moment.bound? = some scope) :
    (settings.runsScripts = true ∧
        ∃ locals, Function.scope? world.heap function arguments = some locals ∧
          (⟨function.globals, locals, function.closure⟩ : Frame).has scope = true) ∨
      moment.BelongsTo inside
        ((runFunction function arguments).history settings respond inside world) := by
  rw [runFunction, Program.history_bind_apply] at hmoment
  obtain hlocals | hlater := List.mem_append.mp hmoment
  · have hobeys : (Function.localsFor function arguments).Obeys .reserved :=
      Function.obeys_localsFor trivial function arguments
    obtain ⟨hunbound, -⟩ | hbelongs := hobeys.belongs hlocals
    · exact absurd hbound (by simp [hunbound])
    · exact Or.inr (hbelongs.mono (Program.prefix_history_bind _ _ world).subset)
  · obtain ⟨locals, hvalue, hlater⟩ := Ending.mem_onward.mp hlater
    have hrun : (Function.localsFor function arguments).run settings respond world =
        (.value locals, ((Function.localsFor function arguments).run settings respond world).2) :=
      Prod.ext hvalue rfl
    rw [Program.history_bind_apply] at hlater
    obtain hcode | hend := List.mem_append.mp hlater
    swap
    · obtain ⟨_, -, hend⟩ := Ending.mem_onward.mp hend
      exact absurd hend List.not_mem_nil
    obtain ⟨hscripts, hhas⟩ | hbelongs := Script.exists_of_binds hcode hbound
    · exact Or.inl ⟨hscripts, locals, Function.scope?_of_run hrun, hhas⟩
    · refine Or.inr ((hbelongs.mono ?_).mono (Program.suffix_history_bind hrun).subset)
      exact (Program.prefix_history_bind _ _ _).subset

theorem Program.history_heap_bind {Result : Type} (next : Heap → Program Result) (world : World) :
    (Program.heap >>= next).history settings respond inside world =
      ⟨.performs .heap, world, world⟩ :: (next world.heap).history settings respond inside world :=
  rfl

/-- A call of a user function looks the function up and runs its program. -/
theorem Call.history_function (address : Address) (arguments : Arguments) :
    (dispatch (.function address) arguments).history settings respond inside world =
      ⟨.performs .heap, world, world⟩ ::
        (world.heap.function? address).elim [] fun function ↦
          (runFunction function arguments).history settings respond inside world := by
  rw [dispatch, Program.history_heap_bind]
  dsimp only
  cases world.heap.function? address <;> rfl

/-- The same for the program of the call, in which the function is looked up first. -/
theorem Call.exists_of_dispatch {address : Address} {arguments : Arguments}
    (hmoment : moment ∈
      (dispatch (.function address) arguments).history settings respond inside world)
    {scope : Address} (hbound : moment.bound? = some scope) :
    settings.runsScripts = true ∧
        ((Request.call (.function address) arguments).frame? world.heap).any (·.has scope) = true ∨
      moment.BelongsTo inside
        ((dispatch (.function address) arguments).history settings respond inside world) := by
  rw [Call.history_function] at hmoment ⊢
  obtain rfl | hlater := List.mem_cons.mp hmoment
  · cases hbound
  cases hfunction : world.heap.function? address with
  | none =>
    rw [hfunction] at hlater
    exact absurd hlater List.not_mem_nil
  | some function =>
    rw [hfunction] at hlater
    obtain ⟨hscripts, locals, hlocals, hhas⟩ | hbelongs :=
      Call.exists_of_runFunction hlater hbound
    · exact Or.inl ⟨hscripts, by simp [Request.frame?, hfunction, hlocals, hhas]⟩
    · exact Or.inr (hbelongs.mono (List.subset_cons_self _ _))

/-- What happens for a call is a report, or happens in the program of the call in the same heap. -/
theorem Call.exists_of_mem_history {callable : Value} {arguments : Arguments}
    (hmoment : moment ∈ Call.history settings respond inside callable arguments world) :
    (∃ event, moment.action = .reports event) ∨
      ∃ start : World, start.heap = world.heap ∧
        moment ∈ (Call.dispatch callable arguments).history settings respond inside start ∧
        (Call.dispatch callable arguments).history settings respond inside start ⊆
          Call.history settings respond inside callable arguments world := by
  by_cases hbuiltin : ∃ builtin, callable = .builtin (.function builtin)
  · obtain ⟨builtin, rfl⟩ := hbuiltin
    obtain hwithin | hlast := List.mem_append.mp hmoment
    · obtain rfl | hwithin := List.mem_cons.mp hwithin
      · exact Or.inl ⟨_, rfl⟩
      · exact Or.inr ⟨world.observe (.builtinCall builtin.name arguments.count world.depth), rfl,
          hwithin, fun _ hother ↦ List.mem_append_left _ (List.mem_cons_of_mem _ hother)⟩
    · obtain rfl := List.mem_singleton.mp hlast
      exact Or.inl ⟨_, rfl⟩
  · have hother : ∀ builtin, callable ≠ .builtin (.function builtin) :=
      fun builtin hsame ↦ hbuiltin ⟨builtin, hsame⟩
    rw [Call.history_of_other hother] at hmoment ⊢
    exact Or.inr ⟨world, rfl, hmoment, List.Subset.refl _⟩

/-- Where a call binds a variable, it does so in its frame, or for a request that it makes. -/
theorem Call.exists_of_binds {callable : Value} {arguments : Arguments}
    (hmoment : moment ∈ Call.history settings respond inside callable arguments world)
    {scope : Address} (hbound : moment.bound? = some scope) :
    settings.runsScripts = true ∧
        ((Request.call callable arguments).frame? world.heap).any (·.has scope) = true ∨
      moment.BelongsTo inside (Call.history settings respond inside callable arguments world) := by
  obtain ⟨event, hreports⟩ | ⟨start, hheap, hdispatch, hwhole⟩ :=
    Call.exists_of_mem_history hmoment
  · rw [Moment.bound?, Moment.ofEffect, hreports] at hbound
    cases hbound
  by_cases hfunction : ∃ address, callable = .function address
  · obtain ⟨address, rfl⟩ := hfunction
    rw [← hheap]
    exact (Call.exists_of_dispatch hdispatch hbound).imp id (·.mono hwhole)
  · have hother : ∀ address, callable ≠ .function address :=
      fun address hsame ↦ hfunction ⟨address, hsame⟩
    have hobeys := Call.obeys_dispatch (Policy.reserved_coversCall hother arguments)
    obtain ⟨hunbound, -⟩ | hbelongs := hobeys.belongs hdispatch
    · exact absurd hbound (by simp [hunbound])
    · exact Or.inr (hbelongs.mono hwhole)

end

/-! ### Variables are bound in frames in use -/

section

variable {settings : Settings} {world : World} {moment : Moment} {scope : Address}

/-- Where a variable is bound one level deeper, the depth limit is not reached, and it is bound in
what runs there. -/
theorem World.exists_of_bound {Result : Type} {part : World → Ending Result × World}
    {history : World → List Moment} (hmoment : moment ∈ world.deeperHistory settings part history)
    (hbound : moment.bound? = some scope) :
    world.depth < settings.limits.maxDepth ∧
      moment ∈ history { world with depth := world.depth + 1 } ∧
      history { world with depth := world.depth + 1 } ⊆
        world.deeperHistory settings part history := by
  by_cases hlimit : settings.limits.maxDepth ≤ world.depth
  · rw [deeperHistory, if_pos hlimit] at hmoment
    obtain rfl := List.mem_singleton.mp hmoment
    cases hbound
  · refine ⟨Nat.lt_of_not_le hlimit, ?_, (World.infix_deeperHistory hlimit).subset⟩
    rw [deeperHistory, if_neg hlimit] at hmoment
    obtain hwithin | hlast := List.mem_append.mp hmoment
    · obtain rfl | hwithin := List.mem_cons.mp hwithin
      · cases hbound
      · exact hwithin
    · obtain rfl := List.mem_singleton.mp hlast
      cases hbound

/-- Whatever dict a variable is bound in during the answer to a request, a request is made that runs
code with this dict for its locals or globals. -/
theorem Request.exists_uses {patience : Nat} {Answer : Type} {request : Request Answer}
    (hmoment : moment ∈ request.history settings patience world)
    (hbound : moment.bound? = some scope) :
    ∃ asked ∈ request.opening (Request.history settings patience) world,
      asked.uses settings scope = true := by
  induction patience generalizing Answer request world with
  | zero => exact absurd hmoment List.not_mem_nil
  | succ patience ih =>
    have hinside : ∀ {moments : List Moment},
        moment.BelongsTo (Request.opening (Request.history settings patience)) moments →
          ∃ asked ∈ moments, asked.uses settings scope = true := by
      rintro moments ⟨Other, request, reached, hmem, hsubset⟩
      obtain rfl | hlater := List.mem_cons.mp hmem
      · cases hbound
      · obtain ⟨asked, hasked, huses⟩ := ih hlater
        exact ⟨asked, hsubset hasked, huses⟩
    cases request with
    | call callable arguments =>
      obtain ⟨hdepth, hcall, hdeeper⟩ := World.exists_of_bound hmoment hbound
      obtain ⟨hscripts, hhas⟩ | hbelongs := Call.exists_of_binds hcall hbound
      · refine ⟨_, List.mem_cons_self, ?_⟩
        simp [Moment.uses, Request.uses, hscripts, hdepth, hhas]
      · exact hinside ((hbelongs.mono hdeeper).mono (List.subset_cons_self _ _))
    | runCode frame code =>
      obtain ⟨hdepth, hcode, hdeeper⟩ := World.exists_of_bound hmoment hbound
      obtain ⟨hscripts, hhas⟩ | hbelongs := Script.exists_of_binds hcode hbound
      · refine ⟨_, List.mem_cons_self, ?_⟩
        simp [Moment.uses, Request.uses, Request.frame?, hscripts, hdepth, hhas]
      · exact hinside ((hbelongs.mono hdeeper).mono (List.subset_cons_self _ _))
    | drain iterator =>
      obtain hstep | hlater := List.mem_append.mp hmoment
      · have hobeys : (Operation.advance iterator).Obeys .reserved :=
          Operation.obeys_advance trivial
        obtain ⟨hunbound, -⟩ | hbelongs := hobeys.belongs hstep
        · exact absurd hbound (by simp [hunbound])
        · exact hinside ((hbelongs.mono (List.subset_append_left _ _)).mono
            (List.subset_cons_self _ _))
      · obtain ⟨step, hvalue, hrest⟩ := Ending.mem_onward.mp hlater
        cases step with
        | exhausted => exact absurd hrest List.not_mem_nil
        | produced item =>
          -- The asking for the rest of the items is none of its own moments.
          obtain ⟨asked, hasked, huses⟩ := ih hrest
          obtain rfl | hasked := List.mem_cons.mp hasked
          · simp [Moment.uses, Request.uses, Request.frame?] at huses
          · have hsuffix := Request.suffix_history_drain (Prod.ext hvalue rfl)
            exact ⟨asked, List.mem_cons_of_mem _ (hsuffix.subset hasked), huses⟩

/-- A dict is spared by a request if no code runs in a frame that has it, no attribute is stored in
it, and no entry of it is set or removed directly. -/
theorem Request.spares {patience : Nat} {Answer : Type} {request : Request Answer} {dict : Address}
    (huses : ∀ moment ∈ request.opening (Request.history settings patience) world,
      moment.uses settings dict = false)
    (hstored : ∀ moment ∈ request.history settings patience world, moment.stored? ≠ some dict)
    (hedited : ∀ moment ∈ request.history settings patience world, moment.edited? ≠ some dict) :
    Heap.Spares (· = dict) world.heap (request.answer settings patience world).2.heap := by
  refine (request.linked_history settings patience world).spares ?_
  rintro moment hmoment target htarget rfl
  rw [moment.target?_eq, Option.or_eq_some_iff, Option.or_eq_some_iff] at htarget
  obtain hbound | ⟨-, hother | ⟨-, hother⟩⟩ := htarget
  · obtain ⟨asked, hasked, hused⟩ := Request.exists_uses hmoment hbound
    exact absurd hused (by simp [huses asked hasked])
  · exact hstored moment hmoment hother
  · exact hedited moment hmoment hother

end

end Metaobject
