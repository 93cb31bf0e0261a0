import Metaobject.Proofs.Obedience.Call
import Metaobject.Proofs.Run.Incidents

/-!
# Where exceptions are taken

The points at which programs guard a part of themselves (`Owner.Guards`): `getattr` with a default,
`hasattr`, `next`, the draining of an iterator for `list` and `tuple`, the `protect` statements of
the scripts that are run, and the direct operations of scripts on iterators. There are no others:
every guard around a failure in the answer to a request is one of them (`Request.atPoints`).
-/

set_option autoImplicit false
set_option relaxedAutoImplicit false

namespace Metaobject

/-! ### Scripts that are run -/

/-- Whether the running of a script begins at a moment and the script has a mark. -/
def Moment.Enters (settings : Settings) (moment : Moment) (mark : Script.Mark) : Prop :=
  ∃ code statements reached, moment.action = .performs (.enterBody code) ∧
    (Effect.enterBody code).answer settings moment.before = (.value statements, reached) ∧
      mark ∈ Script.Statement.marksOfAll statements

/-- Whether the scripts whose running begins in a run have only the given marks. -/
def EntersOnly (settings : Settings) (scripts : Script.Mark → Prop) (moments : List Moment) :
    Prop :=
  ∀ moment ∈ moments, ∀ mark, moment.Enters settings mark → scripts mark

theorem EntersOnly.of_subset {settings : Settings} {scripts : Script.Mark → Prop}
    {part whole : List Moment} (hwhole : EntersOnly settings scripts whole) (hpart : part ⊆ whole) :
    EntersOnly settings scripts part :=
  fun moment hmoment ↦ hwhole moment (hpart hmoment)

/-! ### The points -/

/-- Whether a program is that of a script. -/
def Owner.RunsScript : Owner → Prop
  | .call callable _ => ∃ address, callable = .function address
  | .code _ _ | .step _ _ => True
  | .drain _ _ => False

/-- Whether a program is that of a call of `list` or `tuple`. -/
def Owner.Collects : Owner → Prop
  | .call callable _ => callable = .builtin (.type .list) ∨ callable = .builtin (.type .tuple)
  | .code _ _ | .step _ _ | .drain _ _ => False

/-- The parts that a program guards, by whose program it is, with the exceptions that are taken,
where the scripts that are run have the given marks. -/
inductive Owner.Guards (scripts : Script.Mark → Prop) :
    Owner → Handler → {Answer : Type} → Program Answer → Prop
  /-- With a default `getattr` takes an `AttributeError` of reading the attribute. -/
  | getattr {arguments : Arguments} {value default : Value} {name : String}
      (hbound : arguments.twoOrThree BuiltinFunction.getattr.name =
        .ok (value, .text name, some default)) :
      Guards scripts (.call (.builtin (.function .getattr)) arguments) (.within .attributeError)
        (Attribute.get value name)
  /-- `hasattr` takes an `AttributeError` of reading the attribute. -/
  | hasattr {arguments : Arguments} {value : Value} {name : String}
      (hbound : arguments.two BuiltinFunction.hasattr.name = .ok (value, .text name)) :
      Guards scripts (.call (.builtin (.function .hasattr)) arguments) (.within .attributeError)
        (Attribute.get value name)
  /-- `next` takes a `StopIteration` that comes out of `__next__`. -/
  | next {arguments : Arguments} {iterator : Value} {default : Option Value}
      (hbound : arguments.oneOrTwo BuiltinFunction.next.name = .ok (iterator, default)) :
      Guards scripts (.call (.builtin (.function .next)) arguments) (.exactly .stopIteration)
        (Capability.invoke? iterator "__next__" [] none)
  /-- The draining of an iterator, for `list` and `tuple` or by the direct operation of a script,
  takes a `StopIteration` that comes out of `__next__`. -/
  | drain {asker : Owner} (hasker : asker.Collects ∨ asker.RunsScript) (iterator : Value) :
      Guards scripts (.drain asker iterator) (.exactly .stopIteration)
        (Capability.invoke? iterator "__next__" [] none)
  /-- A `protect` statement takes what its body raises of the class that it handles. -/
  | protect {owner : Owner} (hscript : owner.RunsScript) {handled : ExceptionClass}
      {body : List Script.Statement} (hmark : scripts (.protects handled body)) (frame : Frame) :
      Guards scripts owner (.within handled) (Script.runBlock frame body)
  /-- The direct operation on an iterator takes a `StopIteration` that comes out of `__next__`. -/
  | probedNext {owner : Owner} (hscript : owner.RunsScript) (iterator : Value) :
      Guards scripts owner (.exactly .stopIteration)
        (Capability.invoke? iterator "__next__" [] none)
  /-- The direct operation on an iterator takes every exception of the step. -/
  | probedStep {owner : Owner} (hscript : owner.RunsScript) (iterator : Value) :
      Guards scripts owner (.within .baseException) (Operation.advance iterator)

/-- The policy under which the programs of an owner guard what the owner guards. -/
def Policy.guarding (scripts : Script.Mark → Prop) (owner : Owner) : Policy where
  reports := True
  drains _ := owner.Collects ∨ owner.RunsScript
  runs := owner.RunsScript
  binds _ := True
  edits := True
  writes := True
  faults _ := True
  marks mark := scripts mark ∧ owner.RunsScript
  guards handler body := owner.Guards scripts handler body
  faults_of_mark _ _ := trivial
  guards_of_mark _ _ hmark frame := .protect hmark.2 hmark.1 frame

section

variable {settings : Settings} {scripts : Script.Mark → Prop} {owner : Owner}

theorem Policy.guarding_coversScripts (hscript : owner.RunsScript) :
    (guarding scripts owner).CoversScripts where
  refusals _ _ := trivial
  misuse := trivial
  drains _ _ := Or.inr hscript
  runs := hscript
  edits := trivial
  probe iterator := .probedStep hscript iterator
  next iterator := .probedNext hscript iterator

theorem Policy.guarding_coversCall (callable : Value) (arguments : Arguments) :
    (guarding scripts (.call callable arguments)).CoversCall callable arguments where
  misuse := trivial
  function address hfunction :=
    ⟨guarding_coversScripts ⟨address, hfunction⟩, fun _ ↦ ⟨trivial, trivial⟩⟩
  buildClass _ := trivial
  print _ := trivial
  collect hcallable _ _ := Or.inl hcallable
  getattr := by
    rintro rfl value name default hbound
    exact .getattr hbound
  hasattr := by
    rintro rfl value name hbound
    exact .hasattr hbound
  next := by
    rintro rfl iterator default hbound
    exact .next hbound

/-- The statements that a program is given have the marks of a script whose running begins. -/
theorem Effect.answers_of_entersOnly {Answer : Type} {effect : Effect Answer} {answer : Answer}
    {world reached : World} {rest : List Moment}
    (hvalue : effect.answer settings world = (.value answer, reached))
    (hpermitted : effect.Permitted (.guarding scripts owner))
    (hentered : EntersOnly settings scripts
      (⟨.performs effect, world, (effect.answer settings world).2⟩ :: rest)) :
    effect.Answers (.guarding scripts owner) answer := by
  cases effect with
  | enterBody code =>
    exact fun mark hmark ↦ ⟨hentered _ List.mem_cons_self mark
      ⟨code, answer, reached, rfl, hvalue, hmark⟩, hpermitted⟩
  | _ => trivial

/-! ### The guards around failures -/

/-- Whether an incident lies inside guards at the points only. -/
def Incident.AtPoints (scripts : Script.Mark → Prop) (incident : Incident) : Prop :=
  ∀ guard ∈ incident.guards, guard.owner.Guards scripts guard.handler guard.body

theorem Ending.atPoints_of_incident {Result : Type} {ending : Ending Result}
    {moments : List Moment} {incident : Incident}
    (hincident : incident ∈ ending.incident moments) : incident.AtPoints scripts := by
  obtain ⟨failure, -, rfl⟩ := Option.map_eq_some_iff.mp (Option.mem_toList.mp hincident)
  exact fun _ hguard ↦ absurd hguard List.not_mem_nil

section

variable {patience : Nat} {inside : {Answer : Type} → Request Answer → World → List Incident}

/-- The guards in a program are those of its owner and those in the answers to its requests. -/
theorem Program.Obeys.atPoints
    (hinside : ∀ {Answer : Type} (request : Request Answer) (world : World),
      request.Permitted (.guarding scripts owner) →
        EntersOnly settings scripts (request.opening (Request.history settings patience) world) →
          ∀ incident ∈ inside request world, incident.AtPoints scripts)
    {Result : Type} {program : Program Result} (hobeys : program.Obeys (.guarding scripts owner))
    {world : World}
    (hentered : EntersOnly settings scripts (program.historyWithin settings patience world)) :
    ∀ incident ∈ program.incidents settings owner patience inside world,
      incident.AtPoints scripts := by
  induction program generalizing world with
  | done => exact fun _ hincident ↦ absurd hincident List.not_mem_nil
  | @raise Result exception =>
    exact fun _ ↦ @Ending.atPoints_of_incident scripts Result (.raised exception) [] _
  | @fault Result message =>
    exact fun _ ↦ @Ending.atPoints_of_incident scripts Result (.fault message) [] _
  | perform effect next ih =>
    intro incident hincident
    obtain hearly | hlate := List.mem_append.mp hincident
    · exact Ending.atPoints_of_incident hearly
    · obtain ⟨answer, reached, hvalue, original, horiginal, rfl⟩ :=
        Ending.exists_of_mem_incidentsOnward hlate
      have hanswer := Effect.answers_of_entersOnly hvalue hobeys.1 hentered
      exact ih answer (hobeys.2 answer hanswer)
        (hentered.of_subset (suffix_history_perform hvalue).subset) original horiginal
  | ask request next ih =>
    intro incident hincident
    obtain hearly | hlate := List.mem_append.mp hincident
    · exact hinside request world hobeys.1 (hentered.of_subset (List.subset_append_left _ _))
        incident hearly
    · obtain ⟨answer, reached, hvalue, original, horiginal, rfl⟩ :=
        Ending.exists_of_mem_incidentsOnward hlate
      exact ih answer (hobeys.2 answer)
        (hentered.of_subset (suffix_history_ask hvalue).subset) original horiginal
  | attempt handler body next ihbody ihnext =>
    obtain ⟨hguards, hbody, hnext⟩ := hobeys
    intro incident hincident
    obtain hearly | hlate := List.mem_append.mp hincident
    · obtain ⟨original, horiginal, rfl⟩ := List.mem_map.mp hearly
      intro guard hguard
      obtain hinner | hlast := List.mem_append.mp hguard
      · exact ihbody hbody (hentered.of_subset (List.subset_append_left _ _)) original horiginal
          guard hinner
      · rw [List.mem_singleton.mp hlast]
        exact hguards
    · obtain ⟨result, reached, hlater, original, horiginal, rfl⟩ :=
        Ending.exists_of_mem_incidentsHandledOnward hlate
      refine ihnext result (hnext result) (hentered.of_subset ?_) original horiginal
      have hwhole := hlater fun result ↦ (next result).historyWithin settings patience
      rw [← hwhole]
      exact List.subset_append_right _ _

theorem Call.atPoints {callable : Value} {arguments : Arguments}
    (hinside : ∀ {Answer : Type} (request : Request Answer) (world : World),
      request.Permitted (.guarding scripts (.call callable arguments)) →
        EntersOnly settings scripts (request.opening (Request.history settings patience) world) →
          ∀ incident ∈ inside request world, incident.AtPoints scripts) {world : World}
    (hentered : EntersOnly settings scripts (Call.history settings
      (Request.answer settings patience) (Request.opening (Request.history settings patience))
        callable arguments world)) :
    ∀ incident ∈ Call.incidents settings patience inside callable arguments world,
      incident.AtPoints scripts := by
  have hobeys : (Call.dispatch callable arguments).Obeys
      (.guarding scripts (.call callable arguments)) :=
    Call.obeys_dispatch (Policy.guarding_coversCall callable arguments)
  cases callable with
  | builtin builtin =>
    cases builtin with
    | function builtin =>
      intro incident hincident
      obtain ⟨original, horiginal, rfl⟩ := List.mem_map.mp hincident
      refine hobeys.atPoints hinside (hentered.of_subset ?_) original horiginal
      exact fun moment hmoment ↦ List.mem_append_left _ (List.mem_cons_of_mem _ hmoment)
    | type | exception => exact hobeys.atPoints hinside hentered
  | _ => exact hobeys.atPoints hinside hentered

end

theorem World.atPoints_deeper {Result : Type} {part : World → Ending Result × World}
    {history : World → List Moment} {incidents : World → List Incident}
    (hincidents : ∀ inner, EntersOnly settings scripts (history inner) →
      ∀ incident ∈ incidents inner, incident.AtPoints scripts) {world : World}
    (hentered : EntersOnly settings scripts (world.deeperHistory settings part history)) :
    ∀ incident ∈ world.deeperIncidents settings incidents, incident.AtPoints scripts := by
  intro incident hincident
  by_cases hlimit : settings.limits.maxDepth ≤ world.depth
  · rw [World.deeperIncidents, if_pos hlimit] at hincident
    rw [List.mem_singleton.mp hincident]
    exact fun _ hguard ↦ absurd hguard List.not_mem_nil
  · rw [World.deeperIncidents, if_neg hlimit] at hincident
    rw [World.deeperHistory, if_neg hlimit] at hentered
    obtain ⟨original, horiginal, rfl⟩ := List.mem_map.mp hincident
    refine hincidents _ (hentered.of_subset ?_) original horiginal
    exact fun moment hmoment ↦ List.mem_append_left _ (List.mem_cons_of_mem _ hmoment)

theorem Request.atPoints_raising {Answer : Type}
    {incidents : {Answer : Type} → Request Answer → World → List Incident}
    {request : Request Answer} {world : World}
    (hincidents : ∀ incident ∈ incidents request world, incident.AtPoints scripts) :
    ∀ incident ∈ request.raising incidents world, incident.AtPoints scripts := by
  intro incident hincident
  obtain ⟨original, horiginal, rfl⟩ := List.mem_map.mp hincident
  exact hincidents original horiginal

/-- Every guard around a failure in the answer to a request is one of the points. -/
theorem Request.atPoints (patience : Nat) {asker : Owner} {Answer : Type}
    {request : Request Answer} (hpermitted : request.Permitted (.guarding scripts asker))
    {world : World} (hentered : EntersOnly settings scripts
      (request.history settings patience world)) :
    ∀ incident ∈ request.incidents settings patience asker world, incident.AtPoints scripts := by
  induction patience generalizing asker Answer request world with
  | zero => exact fun _ hincident ↦ absurd hincident List.not_mem_nil
  | succ patience ih =>
    have hinside : ∀ (asker : Owner) {Answer : Type} (request : Request Answer) (world : World),
        request.Permitted (.guarding scripts asker) →
          EntersOnly settings scripts
            (request.opening (Request.history settings patience) world) →
            ∀ incident ∈ request.raising (Request.incidents settings patience asker) world,
              incident.AtPoints scripts :=
      fun _ _ _ _ hpermitted hentered ↦ Request.atPoints_raising
        (ih hpermitted (hentered.of_subset (List.subset_cons_self _ _)))
    cases request with
    | call callable arguments =>
      exact World.atPoints_deeper (fun _ ↦ Call.atPoints (hinside (.call callable arguments)))
        hentered
    | runCode frame code =>
      have hscript : (Owner.code frame code).RunsScript := trivial
      have hobeys : (Script.runCode frame code).Obeys (.guarding scripts (.code frame code)) :=
        Script.obeys_runCode (Policy.guarding_coversScripts hscript) ⟨trivial, trivial⟩ code
      exact World.atPoints_deeper (fun _ ↦ hobeys.atPoints (hinside (.code frame code))) hentered
    | drain iterator =>
      have hobeys : (Operation.advance iterator).Obeys
          (.guarding scripts (.drain asker iterator)) :=
        Operation.obeys_advance (.drain hpermitted iterator)
      intro incident hincident
      obtain hearly | hlate := List.mem_append.mp hincident
      · exact hobeys.atPoints (hinside (.drain asker iterator))
          (hentered.of_subset (List.subset_append_left _ _)) incident hearly
      · obtain ⟨step, reached, hvalue, original, horiginal, rfl⟩ :=
          Ending.exists_of_mem_incidentsOnward hlate
        cases step with
        | exhausted => exact absurd horiginal List.not_mem_nil
        | produced item =>
          exact ih hpermitted (hentered.of_subset (Request.suffix_history_drain hvalue).subset)
            original horiginal

end

end Metaobject
