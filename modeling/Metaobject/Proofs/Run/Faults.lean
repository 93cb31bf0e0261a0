import Metaobject.Proofs.Obedience.Call
import Metaobject.Proofs.Run.Reachable

/-!
# With which internal errors runs end

When scripts are run and source is compiled, a run ends with an internal error only if a policy
permits it that the program obeys. The world itself answers with one internal error only, for a cell
that is filled twice (`Effect.answer_within`): the code that a program enters is there, because the
program is safe, and is a script with permitted marks, because all code of the heap is
(`Heap.Permits`). This is kept up through programs (`Program.Obeys.run_within`) and through whatever
a request runs (`Request.answer_within`).
-/

set_option autoImplicit false
set_option relaxedAutoImplicit false

namespace Metaobject

variable {policy : Policy}

/-! ### Code in the heap -/

namespace Heap

variable {heap : Heap}

/-- Whether all code of a heap has permitted marks only. -/
def Permits (policy : Policy) (heap : Heap) : Prop :=
  ∀ address record, heap.code? address = some record → policy.Permits record.body.marks

theorem permits_empty (policy : Policy) : Heap.empty.Permits policy := by
  intro address record hrecord
  rw [code?_eq_some_iff] at hrecord
  cases hrecord

theorem Permits.allocate (hpermits : heap.Permits policy) {object : Object}
    (hobject : ∀ record, object = .code record → policy.Permits record.body.marks) :
    (heap.allocate object).Permits policy := by
  intro address record hrecord
  rw [code?_eq_some_iff, get?_allocate] at hrecord
  split at hrecord
  · exact hobject record (Option.some.inj hrecord)
  · exact hpermits address record (code?_eq_some_iff.mpr hrecord)

/-- What is replaced by something else than code leaves the code as it is. -/
theorem Permits.replace (hpermits : heap.Permits policy) (changed : Address) {object : Object}
    (hobject : ∀ record, object ≠ .code record) : (heap.replace changed object).Permits policy := by
  intro address record hrecord
  rw [code?_eq_some_iff, get?_replace] at hrecord
  split at hrecord
  · split at hrecord
    · exact absurd (Option.some.inj hrecord) (hobject record)
    · cases hrecord
  · exact hpermits address record (code?_eq_some_iff.mpr hrecord)

theorem Permits.updateDict (hpermits : heap.Permits policy) (dict : Address)
    (change : Entries Value → Entries Value) : (heap.updateDict dict change).Permits policy := by
  unfold Heap.updateDict
  split
  · exact hpermits.replace dict fun _ hsame ↦ nomatch hsame
  · exact hpermits

theorem Permits.setCell (hpermits : heap.Permits policy) (cell : Address) (content : Value) :
    (heap.setCell cell content).Permits policy := by
  unfold Heap.setCell
  split
  · exact hpermits.replace cell fun _ hsame ↦ nomatch hsame
  · exact hpermits

theorem Permits.append (hpermits : heap.Permits policy) (list : Address) (item : Value) :
    (heap.append list item).Permits policy := by
  unfold Heap.append
  split
  · exact hpermits.replace list fun _ hsame ↦ nomatch hsame
  · exact hpermits

theorem Permits.advance (hpermits : heap.Permits policy) (iterator : Address)
    (remaining : List Value) : (heap.advance iterator remaining).Permits policy := by
  unfold Heap.advance
  split
  · exact hpermits.replace iterator fun _ hsame ↦ nomatch hsame
  · exact hpermits

end Heap

/-! ### Outcomes -/

/-- Whether a run ends in a heap with permitted code, and with a permitted internal error if it ends
with one. -/
structure Ending.Within (policy : Policy) {Result : Type} (outcome : Ending Result × World) :
    Prop where
  heap : outcome.2.heap.Permits policy
  fault : ∀ message, outcome.1 = .fault message → policy.faults message

namespace Ending.Within

variable {First Second Result : Type} {world : World}

theorem value {result : Result} (hheap : world.heap.Permits policy) :
    Ending.Within policy (.value result, world) :=
  ⟨hheap, fun _ hfault ↦ nomatch hfault⟩

theorem raised {exception : Exception} (hheap : world.heap.Permits policy) :
    Ending.Within policy ((.raised exception, world) : Ending Result × World) :=
  ⟨hheap, fun _ hfault ↦ nomatch hfault⟩

theorem exhausted (hheap : world.heap.Permits policy) :
    Ending.Within policy ((.exhausted, world) : Ending Result × World) :=
  ⟨hheap, fun _ hfault ↦ nomatch hfault⟩

theorem ofFault {message : String} (hheap : world.heap.Permits policy)
    (hmessage : policy.faults message) :
    Ending.Within policy ((.fault message, world) : Ending Result × World) :=
  ⟨hheap, fun _ hfault ↦ Ending.fault.inj hfault ▸ hmessage⟩

theorem andThen {outcome : Ending First × World} {next : First → World → Ending Second × World}
    (hfirst : Ending.Within policy outcome)
    (hnext : ∀ result reached, outcome = (.value result, reached) →
      Ending.Within policy (next result reached)) :
    Ending.Within policy (Ending.andThen outcome next) := by
  obtain ⟨ending, reached⟩ := outcome
  cases ending with
  | value result => exact hnext result reached rfl
  | raised | exhausted => exact ⟨hfirst.heap, fun _ hfault ↦ nomatch hfault⟩
  | fault message => exact .ofFault hfirst.heap (hfirst.fault message rfl)

theorem handled {handler : Handler} {outcome : Ending First × World}
    {next : Except Exception First → World → Ending Second × World}
    (hfirst : Ending.Within policy outcome)
    (hok : ∀ result reached, outcome = (.value result, reached) →
      Ending.Within policy (next (.ok result) reached))
    (herror : ∀ exception reached, outcome = (.raised exception, reached) →
      Ending.Within policy (next (.error exception) reached)) :
    Ending.Within policy (Ending.handled handler outcome next) := by
  obtain ⟨ending, reached⟩ := outcome
  cases ending with
  | value result => exact hok result reached rfl
  | raised exception =>
    by_cases htaken : handler.takes exception = true
    · rw [Ending.handled, if_pos htaken]
      exact herror exception reached rfl
    · rw [Ending.handled, if_neg htaken]
      exact .raised hfirst.heap
  | fault message => exact .ofFault hfirst.heap (hfirst.fault message rfl)
  | exhausted => exact .exhausted hfirst.heap

end Ending.Within

/-! ### Effects -/

/-- Settings under which scripts are run and source is compiled, and a policy that permits scripts
only and the internal error for a cell that is filled twice. -/
structure Settings.Serve (settings : Settings) (policy : Policy) : Prop where
  runsScripts : settings.runsScripts = true
  compiles : settings.compiles = true
  filled : policy.faults "cell is already filled"
  foreign : ¬policy.marks .foreign

namespace World

variable {world : World}

theorem create_within (hpermits : world.heap.Permits policy) {object : Object}
    (hobject : ∀ record, object = .code record → policy.Permits record.body.marks) :
    Ending.Within policy (world.create object) :=
  .value (hpermits.allocate hobject)

theorem createWithDict_within (hpermits : world.heap.Permits policy) (entries : Entries Value)
    {object : Address → Object} (hobject : ∀ dict record, object dict ≠ .code record) :
    Ending.Within policy (world.createWithDict entries object) := by
  have hdict : (world.heap.allocate (.dict entries)).Permits policy :=
    hpermits.allocate fun _ hsame ↦ nomatch hsame
  exact .value (hdict.allocate fun record hsame ↦ absurd hsame (hobject _ record))

theorem storeAttribute_within (hpermits : world.heap.Permits policy) (holder : Address)
    (name : String) (content : Value) :
    Ending.Within policy (world.storeAttribute holder name content) := by
  unfold storeAttribute
  split
  · exact .value (hpermits.updateDict _ _)
  · exact .value hpermits

theorem fillCell_within (hfilled : policy.faults "cell is already filled")
    (hpermits : world.heap.Permits policy) (cell : Address) (content : Value) :
    Ending.Within policy (world.fillCell cell content) := by
  unfold fillCell
  split
  · exact .value (hpermits.setCell _ _)
  · exact .ofFault hpermits hfilled

theorem emit_within (hpermits : world.heap.Permits policy)
    (operation : Output → Except Exception Output) :
    Ending.Within policy (world.emit operation) := by
  unfold emit
  split
  · exact .value hpermits
  · exact .raised hpermits

theorem importModule_within (settings : Settings) (hpermits : world.heap.Permits policy)
    (request : ImportRequest) : Ending.Within policy (world.importModule settings request) := by
  unfold importModule
  split
  · exact .raised hpermits
  · dsimp only
    split
    · exact .value hpermits
    · exact .raised hpermits

theorem marks_compiledBody (request : CompileRequest) :
    Script.Statement.marksOfAll (compiledBody request) = [] := by
  simp [compiledBody, Script.Statement.marksOfAll, Script.Statement.marks, Script.Expression.marks,
    Script.Expression.marksOfAll]

theorem compileSource_within {settings : Settings} (hserve : settings.Serve policy)
    (hpermits : world.heap.Permits policy) (request : CompileRequest) :
    Ending.Within policy (world.compileSource settings request) := by
  unfold compileSource
  rw [hserve.compiles]
  split
  · rename_i hmissing
    cases hmissing
  · split
    · exact .raised hpermits
    · refine .value (hpermits.allocate ?_)
      rintro record ⟨⟩
      rw [Script.Body.marks, marks_compiledBody]
      exact policy.permits_nil

/-- Code that is there is a script with permitted marks. -/
theorem enterBody_within {settings : Settings} (hserve : settings.Serve policy)
    (hpermits : world.heap.Permits policy) {code : Address}
    (hcode : world.heap.Holds (.code code)) :
    ∃ statements, world.enterBody settings code = (.value statements, world) ∧
      policy.Permits (Script.Statement.marksOfAll statements) := by
  obtain ⟨record, hrecord⟩ := Option.isSome_iff_exists.mp (Heap.holds_code.mp hcode)
  have hmarks := hpermits code record hrecord
  unfold enterBody
  rw [hrecord, hserve.runsScripts]
  cases hbody : record.body with
  | script statements =>
    rw [hbody, Script.Body.marks] at hmarks
    exact ⟨statements, by simp [hbody], hmarks⟩
  | foreign =>
    rw [hbody, Script.Body.marks] at hmarks
    exact absurd (hmarks .foreign (List.mem_singleton_self _)) hserve.foreign

end World

/-- Effects keep the code of the heap permitted, and fail internally at most because a cell is
filled already. -/
theorem Effect.answer_within {settings : Settings} (hserve : settings.Serve policy) {world : World}
    (hpermits : world.heap.Permits policy) {Answer : Type} (effect : Effect Answer)
    (hadmissible : effect.Admissible world.heap) (hpermitted : effect.Permitted policy) :
    Ending.Within policy (effect.answer settings world) := by
  cases effect with
  | permitBits bits =>
    simp only [Effect.answer]
    split
    · exact .raised hpermits
    · exact .value hpermits
  | newCode record =>
    refine World.create_within hpermits ?_
    rintro _ ⟨⟩
    exact hpermitted
  | newList | newDict | newCell | newIterator | newFunction | newMethod | newException =>
    exact World.create_within hpermits (by simp)
  | newClass definition =>
    simp only [Effect.answer, World.createClass]
    split
    · exact .raised hpermits
    · exact World.createWithDict_within hpermits _ (by simp)
  | newInstance | newModule =>
    exact World.createWithDict_within hpermits _ (by simp)
  | bindName scope name content => exact .value (hpermits.updateDict scope _)
  | storeAttribute holder name content =>
    exact World.storeAttribute_within hpermits holder name content
  | insertEntry dict key content => exact .value (hpermits.updateDict dict _)
  | eraseEntry dict key => exact .value (hpermits.updateDict dict _)
  | appendItem list item => exact .value (hpermits.append list item)
  | setCell cell content => exact .value (hpermits.setCell cell content)
  | fillCell cell content => exact World.fillCell_within hserve.filled hpermits cell content
  | takeItem iterator =>
    simp only [Effect.answer]
    split
    · exact .value hpermits
    · exact .value (hpermits.advance iterator _)
  | takeAll iterator => exact .value (hpermits.advance iterator [])
  | write text => exact World.emit_within hpermits fun output ↦ output.write text
  | flush => exact World.emit_within hpermits _
  | importModule request => exact World.importModule_within settings hpermits request
  | compileSource request => exact World.compileSource_within hserve hpermits request
  | enterBody code =>
    obtain ⟨statements, hanswer, -⟩ := World.enterBody_within hserve hpermits hadmissible
    simp only [Effect.answer, hanswer]
    exact .value hpermits
  | heap | depth | reportMetaclass | reportClass => exact .value hpermits

/-- The statements that a program is given have permitted marks. -/
theorem Effect.answers_of_value {settings : Settings} (hserve : settings.Serve policy)
    {world reached : World} (hpermits : world.heap.Permits policy) {Answer : Type}
    {effect : Effect Answer} (hadmissible : effect.Admissible world.heap) {answer : Answer}
    (hvalue : effect.answer settings world = (.value answer, reached)) :
    effect.Answers policy answer := by
  cases effect with
  | enterBody code =>
    obtain ⟨statements, hanswer, hmarks⟩ := World.enterBody_within hserve hpermits hadmissible
    simp only [Effect.answer, hanswer] at hvalue
    cases hvalue
    exact hmarks
  | _ => trivial

/-! ### Programs -/

/-- Whether requests that may be made are answered within a policy. -/
def RespondsWithin (policy : Policy) (settings : Settings)
    (respond : {Answer : Type} → Request Answer → World → Ending Answer × World) : Prop :=
  ∀ {Answer : Type} (request : Request Answer) (world : World), world.heap.WellFormed →
    settings.Held world.heap → request.Admissible world.heap → world.heap.Permits policy →
      Ending.Within policy (respond request world)

/-- A safe program that obeys a policy runs within it. -/
theorem Program.Obeys.run_within {settings : Settings} (hserve : settings.Serve policy)
    {respond : {Answer : Type} → Request Answer → World → Ending Answer × World}
    (hsound : SoundResponder settings respond) (hrespond : RespondsWithin policy settings respond)
    {Result : Type} {program : Program Result} (hobeys : program.Obeys policy) {world : World}
    {post : Heap → Result → Prop} (hsafe : program.Safe world.heap post)
    (hformed : world.heap.WellFormed) (hsettings : settings.Held world.heap)
    (hpermits : world.heap.Permits policy) :
    Ending.Within policy (program.run settings respond world) := by
  induction program generalizing world with
  | done result => exact .value hpermits
  | raise => exact .raised hpermits
  | fault message => exact .ofFault hpermits hobeys
  | perform effect next ih =>
    obtain ⟨hadmissible, hsafe⟩ := hsafe
    have hanswer := effect.answer_within hserve hpermits hadmissible hobeys.1
    obtain ⟨hlater, hyields⟩ := effect.answer_sound hformed hsettings hadmissible
    refine hanswer.andThen fun answer reached hvalue ↦ ?_
    have hanswers := Effect.answers_of_value hserve hpermits hadmissible hvalue
    rw [hvalue] at hanswer hlater hyields
    exact ih answer (hobeys.2 answer hanswers) (hsafe _ answer hlater (hyields answer rfl))
      hlater.formed (hsettings.grow hlater.grows) hanswer.heap
  | ask request next ih =>
    obtain ⟨hadmissible, hsafe⟩ := hsafe
    have hanswer := hrespond request world hformed hsettings hadmissible hpermits
    obtain ⟨hlater, hyields⟩ := hsound request world hformed hsettings hadmissible
    refine hanswer.andThen fun answer reached hvalue ↦ ?_
    rw [hvalue] at hanswer hlater hyields
    exact ih answer (hobeys.2 answer) (hsafe _ answer hlater (hyields answer rfl)) hlater.formed
      (hsettings.grow hlater.grows) hanswer.heap
  | attempt handler body next ihbody ihnext =>
    obtain ⟨middle, hbody, hok, herror⟩ := hsafe
    obtain ⟨-, hobeysbody, hobeysnext⟩ := hobeys
    have houtcome := ihbody hobeysbody hbody hformed hsettings hpermits
    obtain ⟨hlater, hyields⟩ := hbody.run hsound hformed hsettings
    refine houtcome.handled (fun answer reached hvalue ↦ ?_) fun exception reached hraised ↦ ?_
    · rw [hvalue] at houtcome hlater hyields
      exact ihnext _ (hobeysnext _) (hok _ answer hlater (hyields answer rfl)) hlater.formed
        (hsettings.grow hlater.grows) houtcome.heap
    · rw [hraised] at houtcome hlater
      exact ihnext _ (hobeysnext _) (herror _ exception hlater) hlater.formed
        (hsettings.grow hlater.grows) houtcome.heap

/-! ### Requests -/

section

variable {settings : Settings}

theorem World.deeper_within {Result : Type} {part : World → Ending Result × World} {world : World}
    (hpermits : world.heap.Permits policy)
    (hpart : ∀ inner : World, inner.heap = world.heap → Ending.Within policy (part inner)) :
    Ending.Within policy (world.deeper settings part) := by
  by_cases hlimit : settings.limits.maxDepth ≤ world.depth
  · rw [deeper, if_pos hlimit]
    exact .raised hpermits
  · rw [deeper, if_neg hlimit]
    obtain ⟨hheap, hfault⟩ := hpart { world with depth := world.depth + 1 } rfl
    exact ⟨hheap, hfault⟩

variable (hserve : settings.Serve policy)

include hserve

theorem Call.run_within {respond : {Answer : Type} → Request Answer → World → Ending Answer × World}
    (hsound : SoundResponder settings respond) (hrespond : RespondsWithin policy settings respond)
    {callable : Value} {arguments : Arguments} (hcovers : policy.CoversCall callable arguments)
    {world : World} (hformed : world.heap.WellFormed) (hsettings : settings.Held world.heap)
    (hcallable : world.heap.Holds callable) (harguments : arguments.Held world.heap)
    (hpermits : world.heap.Permits policy) :
    Ending.Within policy (Call.run settings respond callable arguments world) := by
  have hprogram : ∀ inner : World, inner.heap = world.heap →
      Ending.Within policy ((Call.dispatch callable arguments).run settings respond inner) := by
    intro inner hheap
    have hsafe := Call.safe_dispatch hformed hcallable harguments
    rw [← hheap] at hformed hsettings hsafe hpermits
    exact (Call.obeys_dispatch hcovers).run_within hserve hsound hrespond hsafe hformed hsettings
      hpermits
  cases callable with
  | builtin builtin =>
    cases builtin with
    | function builtin =>
      obtain ⟨hheap, hfault⟩ :=
        hprogram (world.observe (.builtinCall builtin.name arguments.count world.depth)) rfl
      exact ⟨hheap, hfault⟩
    | type | exception => exact hprogram world rfl
  | _ => exact hprogram world rfl

/-- Requests are answered within a policy that covers all calls and scripts. -/
theorem Request.answer_within (hscripts : policy.CoversScripts)
    (hframes : ∀ frame, policy.BindsIn frame)
    (hcalls : ∀ callable arguments, policy.CoversCall callable arguments) (patience : Nat) :
    RespondsWithin policy settings (Request.answer settings patience) := by
  induction patience with
  | zero => exact fun _ _ _ _ _ hpermits ↦ .exhausted hpermits
  | succ patience ih =>
    have hsound : SoundResponder settings (Request.answer settings patience) :=
      Request.answer_sound settings patience
    intro Answer request world hformed hsettings hadmissible hpermits
    cases request with
    | call callable arguments =>
      refine World.deeper_within hpermits fun inner hheap ↦ ?_
      obtain ⟨hcallable, harguments⟩ := hadmissible
      rw [← hheap] at hformed hsettings hcallable harguments hpermits
      exact Call.run_within hserve hsound ih (hcalls callable arguments) hformed hsettings
        hcallable harguments hpermits
    | runCode frame code =>
      refine World.deeper_within hpermits fun inner hheap ↦ ?_
      have hsafe := Script.safe_runCode hformed hadmissible.1 hadmissible.2
      rw [← hheap] at hformed hsettings hsafe hpermits
      exact (Script.obeys_runCode hscripts (hframes frame) code).run_within hserve hsound ih hsafe
        hformed hsettings hpermits
    | drain iterator =>
      have hsafe := Operation.safe_advance hformed hadmissible
      have hobeys : (Operation.advance iterator).Obeys policy :=
        Operation.obeys_advance (hscripts.next iterator)
      have hstep := hobeys.run_within hserve hsound ih hsafe hformed hsettings hpermits
      obtain ⟨hlater, -⟩ := hsafe.run hsound hformed hsettings
      refine hstep.andThen fun step reached hvalue ↦ ?_
      rw [hvalue] at hstep hlater
      cases step with
      | exhausted => exact .value hstep.heap
      | produced item =>
        have hrest := ih (.drain iterator) reached hlater.formed (hsettings.grow hlater.grows)
          (Heap.Holds.grow hlater.grows hadmissible) hstep.heap
        refine hrest.andThen fun items last hlast ↦ ?_
        rw [hlast] at hrest
        exact .value hrest.heap

end

end Metaobject
