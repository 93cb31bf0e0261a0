import Metaobject.Proofs.Obedience.Builtin
import Metaobject.Proofs.Run.Bracketing

/-!
# The reports of class construction

A construction is an outline, the report of the resolved metaclass, the making of the class, and the
report of the class (`run_eq_outline`). Outlining changes nothing that is observed, and making the
class reports nothing itself, so what a construction reports is told by how far it gets
(`exists_reports`): nothing, or its metaclass, or its metaclass and at last its class.
-/

set_option autoImplicit false
set_option relaxedAutoImplicit false

namespace Metaobject

theorem Cut.isValue_ending {Result : Type} (cut : Cut) :
    ¬(cut.ending : Ending Result).isValue := by
  cases cut <;> exact Bool.false_ne_true

namespace Program

variable {settings : Settings}
  {respond : {Answer : Type} → Request Answer → World → Ending Answer × World}
  {inside : {Answer : Type} → Request Answer → World → List Moment} {First Second : Type}

/-- A sequence that gives a value has given one in its first part. -/
theorem exists_of_run_bind {program : Program First} {next : First → Program Second}
    {world final : World} {result : Second}
    (hrun : (program >>= next).run settings respond world = (.value result, final)) :
    ∃ first middle, program.run settings respond world = (.value first, middle) ∧
      (next first).run settings respond middle = (.value result, final) := by
  rw [run_bind_apply] at hrun
  rcases Ending.value_or_cut (program.run settings respond world) with ⟨first, hfirst⟩ | ⟨cut, hcut⟩
  · rw [hfirst] at hrun
    exact ⟨first, _, hfirst, hrun⟩
  · rw [hcut, cut.andThen_ending] at hrun
    exact absurd (congrArg Prod.fst hrun) (cut.ending_ne_value result)

theorem history_bind_apply (program : Program First) (next : First → Program Second)
    (world : World) : (program >>= next).history settings respond inside world =
      program.history settings respond inside world ++
        Ending.onward (program.run settings respond world) fun result ↦
          (next result).history settings respond inside :=
  congrFun (history_bind settings respond inside program next) world

theorem prefix_history_bind (program : Program First) (next : First → Program Second)
    (world : World) : program.history settings respond inside world <+:
      (program >>= next).history settings respond inside world := by
  rw [history_bind_apply]
  exact List.prefix_append _ _

theorem suffix_history_bind {program : Program First} {next : First → Program Second}
    {world middle : World} {first : First}
    (hrun : program.run settings respond world = (.value first, middle)) :
    (next first).history settings respond inside middle <:+
      (program >>= next).history settings respond inside world := by
  rw [history_bind_apply, hrun]
  exact List.suffix_append _ _

theorem prefix_asked_bind (program : Program First) (next : First → Program Second)
    (world : World) :
    program.asked settings respond world <+: (program >>= next).asked settings respond world := by
  rw [asked_bind]
  exact List.prefix_append _ _

theorem suffix_asked_bind {program : Program First} {next : First → Program Second}
    {world middle : World} {first : First}
    (hrun : program.run settings respond world = (.value first, middle)) :
    (next first).asked settings respond middle <:+
      (program >>= next).asked settings respond world := by
  rw [asked_bind, hrun]
  exact List.suffix_append _ _

end Program

namespace BuildClass

/-! ### The parts of a construction -/

/-- What a construction settles before it reports its metaclass. -/
structure Outline where
  definition : Definition
  metaclass : Value
  metaclassName : String
  keywords : Option Address

/-- Settles an outline. -/
def outline (arguments : Arguments) : Program Outline := do
  let heap ← Program.heap
  let definition ← .ofExcept (definition heap arguments.positional)
  let (explicit, keywords) ← splitMetaclass arguments.keywords
  let heap ← Program.heap
  let metaclass ← .ofExcept (resolve heap explicit definition.bases)
  return ⟨definition, metaclass, metaclassName heap metaclass, keywords⟩

namespace Outline

/-- Makes the class of a body with a result. -/
def make (outline : Outline) (namespaceDict : Address) (bodyResult : Value) :
    Program (Option Value) := do
  let heap ← Program.heap
  let header := [.text outline.definition.name, .tuple outline.definition.bases]
  let cls ← Program.call outline.metaclass
    (.of heap (header ++ [.dict namespaceDict]) outline.keywords)
  fillClassCell bodyResult cls
  return some cls

/-- Prepares the namespace, runs the body and makes the class, unless the body has no result. -/
def produce (outline : Outline) : Program (Option Value) := do
  let namespaceDict ← prepareNamespace outline.metaclass outline.metaclassName
    [.text outline.definition.name, .tuple outline.definition.bases] outline.keywords
  match ← runBody outline.definition.body namespaceDict with
  | none => return none
  | some bodyResult => outline.make namespaceDict bodyResult

/-- Reports the class that was made and gives it. -/
def finish (outline : Outline) : Option Value → Program Value
  | none => return .null
  | some cls => do
    Program.effect (.reportClass outline.definition.name outline.metaclassName)
    return cls

end Outline

theorem run_eq_outline (arguments : Arguments) : run arguments = (do
    let outline ← outline arguments
    Program.effect (.reportMetaclass outline.definition.name outline.metaclassName)
    outline.finish (← outline.produce)) := by
  simp only [run, outline, Outline.produce, bind_assoc, pure_bind]
  refine bind_congr fun heap ↦ bind_congr fun definition ↦ bind_congr fun keywords ↦ ?_
  refine bind_congr fun heap ↦ bind_congr fun metaclass ↦ bind_congr fun _ ↦ ?_
  refine bind_congr fun namespaceDict ↦ bind_congr fun result ↦ ?_
  cases result with
  | none => rfl
  | some bodyResult => simp only [Outline.make, Outline.finish, bind_assoc, pure_bind]

/-! ### What the parts observe -/

section

variable {settings : Settings}
  {respond : {Answer : Type} → Request Answer → World → Ending Answer × World}
  {inside : {Answer : Type} → Request Answer → World → List Moment}
  {shows : List Moment → Prop} {world : World}

theorem exists_heap_of_splitMetaclass (keywords : Option Address) (world : World) :
    ∃ heap, ((splitMetaclass keywords).run settings respond world).2 = { world with heap } := by
  cases keywords with
  | none => exact ⟨world.heap, rfl⟩
  | some address =>
    show ∃ heap, (Program.run settings respond
      (match (world.heap.entries address).find? "metaclass" with
        | none => _
        | some metaclass => _) world).2 = { world with heap }
    split
    · exact ⟨world.heap, rfl⟩
    · dsimp only
      split <;> exact ⟨_, rfl⟩

/-- Settling an outline changes at most the heap. -/
theorem exists_heap_of_outline (arguments : Arguments) (world : World) :
    ∃ heap, ((outline arguments).run settings respond world).2 = { world with heap } := by
  show ∃ heap, ((Program.ofExcept (definition world.heap arguments.positional) >>= _).run settings
    respond world).2 = { world with heap }
  cases definition world.heap arguments.positional with
  | error => exact ⟨world.heap, rfl⟩
  | ok definition =>
    obtain ⟨heap, hheap⟩ := @exists_heap_of_splitMetaclass settings respond arguments.keywords world
    refine ⟨heap, Eq.trans ?_ hheap⟩
    show ((splitMetaclass arguments.keywords >>= _).run settings respond world).2 = _
    rw [Program.run_bind_apply]
    rcases Ending.value_or_cut ((splitMetaclass arguments.keywords).run settings respond world) with
      ⟨keywords, hkeywords⟩ | ⟨cut, hcut⟩
    · rw [hkeywords]
      show ((Program.ofExcept (resolve _ keywords.1 definition.bases) >>= _).run settings respond
        _).2 = _
      cases resolve _ keywords.1 definition.bases <;> rfl
    · rw [hcut, cut.andThen_ending]

/-- An outline has the definition that the arguments give. -/
theorem definition_of_outline {arguments : Arguments} {found : Outline} {final : World}
    (hfound : (outline arguments).run settings respond world = (.value found, final)) :
    definition world.heap arguments.positional = .ok found.definition := by
  have hfound : ((Program.ofExcept (definition world.heap arguments.positional) >>= _).run settings
    respond world) = (.value found, final) := hfound
  obtain ⟨definition, middle, hdefinition, hfound⟩ := Program.exists_of_run_bind hfound
  obtain ⟨keywords, split, hsplit, hfound⟩ := Program.exists_of_run_bind hfound
  have hfound : ((Program.ofExcept (resolve split.heap keywords.1 definition.bases) >>= _).run
    settings respond split) = (.value found, final) := hfound
  obtain ⟨metaclass, resolved, hmetaclass, hfound⟩ := Program.exists_of_run_bind hfound
  obtain ⟨hvalue, -⟩ := Prod.mk.inj hfound
  rw [← Ending.value.inj hvalue]
  cases houtcome : BuildClass.definition world.heap arguments.positional with
  | ok settled =>
    rw [houtcome] at hdefinition
    exact congrArg Except.ok (Ending.value.inj (Prod.mk.inj hdefinition).1)
  | error =>
    rw [houtcome] at hdefinition
    cases hdefinition

namespace Outline

variable (found : Outline)

theorem obeys_make (namespaceDict : Address) (bodyResult : Value) :
    (found.make namespaceDict bodyResult).Obeys .quiet := by
  refine .heap_bind fun heap ↦ .bind (.call _ _) fun cls ↦ ?_
  exact .bind (obeys_fillClassCell bodyResult cls) fun _ ↦ .pure _

/-- Making a class reports nothing itself. -/
theorem obeys_produce : found.produce.Obeys .quiet := by
  refine .bind (obeys_prepareNamespace _ _ _ _) fun namespaceDict ↦ ?_
  refine .bind (obeys_runBody trivial _ namespaceDict) fun result ↦ ?_
  cases result with
  | none => trivial
  | some bodyResult => exact found.obeys_make namespaceDict bodyResult

/-- Where no class is made the body has been run, and had no result. -/
theorem exists_of_produce_none {world final : World}
    (hnone : found.produce.run settings respond world = (.value none, final)) :
    ∃ locals reached, (respond (found.definition.bodyRequest locals) reached).1 = .value none ∧
      (found.definition.bodyRequest locals).moment respond reached ∈
        found.produce.asked settings respond world := by
  obtain ⟨namespaceDict, prepared, hprepared, hrest⟩ := Program.exists_of_run_bind hnone
  obtain ⟨result, ended, hbody, hrest⟩ := Program.exists_of_run_bind hrest
  have hresult : result = none := by
    cases result with
    | none => rfl
    | some bodyResult =>
      obtain ⟨heap, read, -, hrest⟩ := Program.exists_of_run_bind hrest
      obtain ⟨cls, called, -, hrest⟩ := Program.exists_of_run_bind hrest
      obtain ⟨_, filled, -, hrest⟩ := Program.exists_of_run_bind hrest
      cases hrest
  rw [hresult] at hbody
  obtain ⟨locals, reached, hlocals, hbody⟩ := Program.exists_of_run_bind hbody
  let request := found.definition.bodyRequest locals
  refine ⟨locals, reached, ?_, ?_⟩
  · rw [Program.run_request] at hbody
    exact congrArg Prod.fst hbody
  · have hrequest : request.moment respond reached ∈
        (Program.request request).asked settings respond reached := by
      rw [Program.asked_request]
      exact List.mem_singleton_self _
    have hbody : request.moment respond reached ∈
        (runBody found.definition.body namespaceDict).asked settings respond prepared :=
      (@Program.suffix_asked_bind settings respond _ _ _
        (fun locals ↦ Program.request (found.definition.bodyRequest locals)) _ _ _
        hlocals).subset hrequest
    have hrest := @Program.suffix_asked_bind settings respond _ _ _ (fun namespaceDict ↦
      runBody found.definition.body namespaceDict >>= fun
        | none => pure none
        | some bodyResult => found.make namespaceDict bodyResult) _ _ _ hprepared
    exact hrest.subset ((Program.prefix_asked_bind _ _ prepared).subset hbody)

end Outline

/-! ### What a construction adds -/

/-- The report of the metaclass. -/
def Outline.resolution (found : Outline) : TraceEvent :=
  .metaclassResolved found.definition.name found.metaclassName

section

variable {arguments : Arguments} {found : Outline} {middle : World}

/-- A construction that has settled an outline reports its metaclass and goes on. -/
theorem run_of_outline
    (hfound : (outline arguments).run settings respond world = (.value found, middle)) :
    (run arguments).run settings respond world =
      Ending.andThen (found.produce.run settings respond (middle.observe found.resolution))
        fun result ↦ (found.finish result).run settings respond := by
  rw [run_eq_outline, Program.run_bind_apply, hfound]
  exact Program.run_bind_apply settings respond found.produce found.finish _

theorem infix_of_outline
    (hfound : (outline arguments).run settings respond world = (.value found, middle)) :
    found.produce.history settings respond inside (middle.observe found.resolution) <:+:
      (run arguments).history settings respond inside world := by
  rw [run_eq_outline]
  refine List.IsInfix.trans ?_ (Program.suffix_history_bind hfound).isInfix
  exact (Program.prefix_history_bind _ found.finish _).isInfix.trans (List.suffix_cons _ _).isInfix

theorem subset_asked_of_outline
    (hfound : (outline arguments).run settings respond world = (.value found, middle)) :
    found.produce.asked settings respond (middle.observe found.resolution) ⊆
      (run arguments).asked settings respond world := by
  rw [run_eq_outline]
  refine List.Subset.trans ?_ (Program.suffix_asked_bind hfound).subset
  exact (Program.prefix_asked_bind _ found.finish _).subset

end

section

variable (hpart : ∀ {part whole}, part <:+: whole → shows whole → shows part)
  (hrespond : ∀ {Answer : Type} (request : Request Answer) (world : World),
    shows (inside request world) → Ending.Brackets settings shows world (respond request world))
  {arguments : Arguments} {earlier : List TraceEvent} (hrecords : world.Records earlier)
  (hshows : shows ((run arguments).history settings respond inside world))

include hpart hrespond hrecords hshows

/-- What a construction adds that has settled an outline: the report of its metaclass, a word of
brackets, and the report of its class if it has made one. -/
theorem exists_reports_of_outline {found : Outline} {heap : Heap}
    (hfound : (outline arguments).run settings respond world =
      (.value found, { world with heap })) :
    ∃ nested after,
      ((run arguments).run settings respond world).2.Records
        (earlier ++ ([found.resolution] ++ nested ++ after)) ∧
      Bracketed settings shows (earlier ++ [found.resolution]) nested ∧
        Deeper world.depth nested ∧
          Reports ((run arguments).run settings respond world).1.isValue
            (RunsWithoutResult settings respond (run arguments) arguments world)
            [found.resolution] after := by
  have hinside := @infix_of_outline settings respond inside world arguments found _ hfound
  obtain ⟨-, hproduce⟩ := found.obeys_produce.brackets hpart hrespond (hpart hinside hshows)
  have hstart : (World.observe { world with heap } found.resolution).Records
      (earlier ++ [found.resolution]) := World.Records.observe hrecords _
  obtain ⟨nested, hfinal, hnested, hdeeper⟩ := hproduce _ hstart
  rw [run_of_outline hfound]
  rcases Ending.value_or_cut (found.produce.run settings respond
    (World.observe { world with heap } found.resolution)) with ⟨result, hresult⟩ | ⟨cut, hcut⟩
  · rw [hresult]
    cases result with
    | none =>
      obtain ⟨locals, reached, hbody, hasked⟩ := found.exists_of_produce_none hresult
      refine ⟨nested, [], ?_, hnested, hdeeper, .resolved _ _ fun _ ↦ ?_⟩
      · rw [List.append_nil, ← List.append_assoc]
        exact hfinal
      · exact ⟨found.definition, locals, reached, definition_of_outline hfound, hbody,
          subset_asked_of_outline hfound hasked⟩
    | some cls =>
      refine ⟨nested, [.classBuilt found.definition.name found.metaclassName], ?_, hnested,
        hdeeper, .built _ _ rfl⟩
      rw [← List.append_assoc, ← List.append_assoc]
      exact hfinal.observe _
  · rw [hcut, cut.andThen_ending]
    refine ⟨nested, [], ?_, hnested, hdeeper,
      .resolved _ _ fun hvalue ↦ absurd hvalue cut.isValue_ending⟩
    rw [List.append_nil, ← List.append_assoc]
    rwa [hcut] at hfinal

/-- What a construction adds to the recorded events: a word of brackets, with what the construction
reports itself around it. -/
theorem exists_reports :
    ∃ before nested after,
      ((run arguments).run settings respond world).2.Records
        (earlier ++ (before ++ nested ++ after)) ∧
      Bracketed settings shows (earlier ++ before) nested ∧ Deeper world.depth nested ∧
        Reports ((run arguments).run settings respond world).1.isValue
          (RunsWithoutResult settings respond (run arguments) arguments world) before after := by
  obtain ⟨heap, hheap⟩ := @exists_heap_of_outline settings respond arguments world
  rcases Ending.value_or_cut ((outline arguments).run settings respond world) with
    ⟨found, hfound⟩ | ⟨cut, hcut⟩
  · rw [hheap] at hfound
    exact ⟨_, exists_reports_of_outline hpart hrespond hrecords hshows hfound⟩
  · have hrun : (run arguments).run settings respond world = (cut.ending, { world with heap }) := by
      rw [run_eq_outline, Program.run_bind_apply, hcut, cut.andThen_ending, hheap]
    rw [hrun]
    refine ⟨[], [], [], ?_, .nil _, deeper_nil _, .nothing cut.isValue_ending⟩
    rw [List.append_nil, List.append_nil, List.append_nil]
    exact hrecords

end

end

end BuildClass

end Metaobject
