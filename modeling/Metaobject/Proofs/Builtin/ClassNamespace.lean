import Metaobject.Proofs.Builtin.Reports
import Metaobject.Proofs.Builtin.Resolution

/-!
# The namespace of a new class

Creating a class makes a dict for its namespace and leaves what is there
(`World.createClass_eq_value`). So a class that `type` creates from a name, bases and a dict has a
copy of the dict for its namespace, which is another dict (`Request.exists_of_call_type`).
-/

set_option autoImplicit false
set_option relaxedAutoImplicit false

namespace Metaobject

variable {settings : Settings}
  {respond : {Answer : Type} → Request Answer → World → Ending Answer × World}
  {arguments : Arguments} {name bases cls : Value} {dict : Address} {world final : World}

theorem Program.eq_of_run_ofExcept {Result : Type} {outcome : Except Exception Result}
    {result : Result}
    (hrun : (ofExcept outcome).run settings respond world = (.value result, final)) :
    outcome = .ok result ∧ world = final := by
  cases outcome <;> cases hrun
  exact ⟨rfl, rfl⟩

theorem Program.eq_of_run_ofFailure {Result : Type} {outcome : Except Failure Result}
    {result : Result}
    (hrun : (ofFailure outcome).run settings respond world = (.value result, final)) :
    outcome = .ok result ∧ world = final := by
  cases outcome with
  | ok => cases hrun; exact ⟨rfl, rfl⟩
  | error failure => cases failure <;> cases hrun

theorem Program.exists_of_run_new {effect : Effect Address} {form : Address → Value} {value : Value}
    (hrun : (new effect form).run settings respond world = (.value value, final)) :
    ∃ address, effect.answer settings world = (.value address, final) ∧ value = form address := by
  obtain ⟨address, hanswer⟩ | ⟨cut, hcut⟩ := Ending.value_or_cut (effect.answer settings world)
  · rw [new, run, hanswer] at hrun
    cases hrun
    exact ⟨address, hanswer, rfl⟩
  · rw [new, run, hcut, cut.andThen_ending] at hrun
    exact absurd (congrArg Prod.fst hrun) (cut.ending_ne_value value)

/-- A new class comes with a new dict for its namespace, and leaves what is there. -/
theorem World.createClass_eq_value {definition : ClassDefinition} {address : Address}
    (hcreated : world.createClass definition = (.value address, final)) :
    ∃ record : ClassRecord, world.heap.userClass? address = none ∧
      final.heap.userClass? address = some record ∧ world.heap.size ≤ record.namespaceDict ∧
      final.heap.dict? record.namespaceDict = some definition.attributes ∧
      world.heap.Extends final.heap := by
  unfold createClass at hcreated
  split at hcreated
  · cases hcreated
  · rename_i linearization _
    cases hcreated
    refine ⟨⟨definition.name, definition.metaclass, definition.bases, linearization,
      world.heap.size⟩, ?_, ?_, Nat.le_refl _, ?_, ?_⟩
    · have hunused : world.heap.get? (world.heap.size + 1) = none :=
        (world.heap.get?_eq_none_iff _).mpr (Nat.le_succ _)
      simp [Heap.userClass?, hunused]
    · simp [Heap.userClass?_eq_some_iff, Heap.get?_allocate]
    · simp [Heap.dict?_eq_some_iff, Heap.get?_allocate]
    · exact fun other object hobject ↦
        Heap.extends_allocate _ _ other object (Heap.extends_allocate _ _ other object hobject)

/-- A class is created from three values, and defined with the entries of the dict that is last. -/
theorem ClassCreation.exists_of_run_create {metaclass : ClassRef}
    (hrun : (create metaclass arguments).run settings respond world = (.value cls, final)) :
    ∃ (name bases : Value) (dict : Address) (definition : ClassDefinition) (address : Address),
      arguments.positional = [name, bases, .dict dict] ∧
        definition.attributes = world.heap.entries dict ∧
        world.createClass definition = (.value address, final) ∧ cls = .userClass address := by
  unfold create at hrun
  split at hrun
  · cases hrun
  obtain ⟨⟨first, second, third⟩, reached, hthree, hdefined⟩ := Program.exists_of_run_bind hrun
  obtain ⟨hvalues, rfl⟩ := Program.eq_of_run_ofFailure hthree
  obtain ⟨heap, reached, hheap, hmade⟩ := Program.exists_of_run_bind hdefined
  cases hheap
  obtain ⟨definition, reached, hdefinition, hnew⟩ := Program.exists_of_run_bind hmade
  obtain ⟨hresult, rfl⟩ := Program.eq_of_run_ofExcept hdefinition
  obtain ⟨address, hanswer, hvalue⟩ := Program.exists_of_run_new hnew
  obtain ⟨_, _, source, _, -, -, rfl, -, -, hattributes, -⟩ := definition_eq_ok hresult
  exact ⟨first, second, source, definition, address, Arguments.eq_of_three hvalues, hattributes,
    hanswer, hvalue⟩

/-- Called with a name, bases and a dict, `type` creates a class. -/
theorem Constructor.exists_of_run_type
    (hpositional : arguments.positional = [name, bases, .dict dict])
    (hrun : (runNative .type arguments).run settings respond world = (.value cls, final)) :
    ∃ (definition : ClassDefinition) (address : Address),
      definition.attributes = world.heap.entries dict ∧
        world.createClass definition = (.value address, final) ∧ cls = .userClass address := by
  obtain ⟨heap, reached, hheap, hrun⟩ := Program.exists_of_run_bind hrun
  cases hheap
  obtain ⟨heap, reached, hheap, hrun⟩ := Program.exists_of_run_bind hrun
  cases hheap
  simp only [hpositional] at hrun
  obtain ⟨_, _, source, definition, address, hsource, hcreated⟩ :=
    ClassCreation.exists_of_run_create hrun
  rw [hpositional] at hsource
  obtain ⟨-, -, rfl⟩ : _ ∧ _ ∧ dict = source := by simpa using hsource
  exact ⟨definition, address, hcreated⟩

/-- A class that `type` creates has a copy of the dict that it is given for its namespace. -/
theorem Request.exists_of_call_type {patience : Nat} {entries : Entries Value}
    (hdict : world.heap.dict? dict = some entries)
    (hpositional : arguments.positional = [name, bases, .dict dict])
    (hanswer : (Request.call (.builtin (.type .type)) arguments).answer settings patience world =
      (.value cls, final)) :
    ∃ (address : Address) (record : ClassRecord), cls = .userClass address ∧
      world.heap.userClass? address = none ∧ final.heap.userClass? address = some record ∧
      record.namespaceDict ≠ dict ∧ final.heap.dict? record.namespaceDict = some entries ∧
      final.heap.dict? dict = some entries := by
  cases patience with
  | zero => cases hanswer
  | succ patience =>
    obtain ⟨left, hrun, hheap⟩ := Request.answer_call_eq_value hanswer
    obtain ⟨heap, reached, hread, hrun⟩ := Program.exists_of_run_bind hrun
    cases hread
    obtain ⟨definition, address, hattributes, hcreated, hcls⟩ :=
      Constructor.exists_of_run_type hpositional hrun
    obtain ⟨record, hnew, hrecord, hnamespace, hcopy, hextends⟩ :=
      World.createClass_eq_value hcreated
    rw [World.heap_entered] at hattributes hnew hnamespace hextends
    rw [hheap] at hrecord hcopy hextends
    have hentries : definition.attributes = entries := by
      rw [hattributes, Heap.entries, hdict, Option.getD_some]
    have hget := Heap.dict?_eq_some_iff.mp hdict
    refine ⟨address, record, hcls, hnew, hrecord, ?_, hentries ▸ hcopy,
      Heap.dict?_eq_some_iff.mpr (hextends dict _ hget)⟩
    exact Nat.ne_of_gt (Nat.lt_of_lt_of_le (Heap.lt_size_of_get? hget) hnamespace)

end Metaobject
