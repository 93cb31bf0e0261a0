import Metaobject.Proofs.Run.Incidents

/-!
# Where failures come from

Every failure with which a run ends has come up in it and has been taken by no guard: it is the
failure of one of the incidents of the run (`Program.explained`, `Request.explained`).
-/

set_option autoImplicit false
set_option relaxedAutoImplicit false

namespace Metaobject

/-! ### Endings whose failures have come up -/

/-- Whether every failure of an ending is one that has come up and that no guard has taken. -/
def Ending.ExplainedBy {Result : Type} (ending : Ending Result) (incidents : List Incident) :
    Prop :=
  ∀ failure, ending.failure? = some failure →
    ∃ incident ∈ incidents, incident.failure = failure ∧ incident.Untaken

section

variable {settings : Settings} {First Second Result : Type} {incidents : List Incident}

/-- Changing the value of a run does not change its failure. -/
theorem Ending.failure?_andThen_value (change : First → Second) (outcome : Ending First × World) :
    (Ending.andThen outcome fun result world ↦ (.value (change result), world)).1.failure? =
      outcome.1.failure? := by
  obtain ⟨ending, world⟩ := outcome
  cases ending <;> rfl

namespace Ending.ExplainedBy

variable {ending : Ending Result}

theorem of_incident (moments : List Moment) : ending.ExplainedBy (ending.incident moments) := by
  intro failure hfailure
  refine ⟨⟨failure, moments, []⟩, ?_, rfl, fun _ hguard ↦ absurd hguard List.not_mem_nil⟩
  rw [Ending.incident, hfailure]
  exact List.mem_singleton_self _

theorem after (hexplained : ending.ExplainedBy incidents) (moments : List Moment) :
    ending.ExplainedBy (incidents.map (.after moments)) := by
  intro failure hfailure
  obtain ⟨incident, hincident, hsame, huntaken⟩ := hexplained failure hfailure
  exact ⟨incident.after moments, List.mem_map_of_mem hincident, hsame, huntaken⟩

theorem append_left (hexplained : ending.ExplainedBy incidents) (others : List Incident) :
    ending.ExplainedBy (incidents ++ others) := by
  intro failure hfailure
  obtain ⟨incident, hincident, hsame⟩ := hexplained failure hfailure
  exact ⟨incident, List.mem_append_left others hincident, hsame⟩

theorem append_right (hexplained : ending.ExplainedBy incidents) (others : List Incident) :
    ending.ExplainedBy (others ++ incidents) := by
  intro failure hfailure
  obtain ⟨incident, hincident, hsame⟩ := hexplained failure hfailure
  exact ⟨incident, List.mem_append_right others hincident, hsame⟩

theorem onward {outcome : Ending First × World} {moments : List Moment}
    {next : First → World → Ending Second × World}
    {laterIncidents : First → World → List Incident}
    (hfirst : outcome.1.ExplainedBy incidents)
    (hlater : ∀ result world, (next result world).1.ExplainedBy (laterIncidents result world)) :
    (Ending.andThen outcome next).1.ExplainedBy
      (incidents ++ Ending.incidentsOnward moments outcome laterIncidents) := by
  obtain ⟨ending, world⟩ := outcome
  cases ending with
  | value result => exact ((hlater result world).after moments).append_right incidents
  | raised | fault =>
    intro failure hfailure
    exact hfirst.append_left _ failure hfailure
  | exhausted => exact fun _ hfailure ↦ nomatch hfailure

/-- What a guard does not take comes from inside the guarded part. -/
theorem handledOnward {guard : Guard} {moments : List Moment}
    {next : Except Exception guard.Answer → World → Ending Second × World}
    {laterIncidents : Except Exception guard.Answer → World → List Incident}
    (hbody : (guard.run settings).1.ExplainedBy incidents)
    (hlater : ∀ result world, (next result world).1.ExplainedBy (laterIncidents result world)) :
    (Ending.handled guard.handler (guard.run settings) next).1.ExplainedBy
      (incidents.map (.inside guard) ++ Ending.incidentsHandledOnward guard.handler moments
        (guard.run settings) laterIncidents) := by
  have hpasses : ∀ failure, (guard.run settings).1.failure? = some failure →
      guard.takes failure = false → ∃ incident ∈ incidents.map (Incident.inside guard),
        incident.failure = failure ∧ incident.Untaken := by
    intro failure hfailure hstays
    obtain ⟨incident, hincident, rfl, huntaken⟩ := hbody failure hfailure
    refine ⟨incident.inside guard, List.mem_map_of_mem hincident, rfl, fun other hother ↦ ?_⟩
    obtain hinner | hlast := List.mem_append.mp hother
    · exact huntaken other hinner
    · rwa [List.mem_singleton.mp hlast]
  generalize guard.run settings = outcome at hpasses
  obtain ⟨ending, world⟩ := outcome
  cases ending with
  | value result => exact ((hlater (.ok result) world).after moments).append_right _
  | raised exception =>
    by_cases htakes : guard.handler.takes exception = true
    · rw [Ending.handled, Ending.incidentsHandledOnward, if_pos htakes, if_pos htakes]
      exact ((hlater (.error exception) world).after moments).append_right _
    · rw [Ending.handled, Ending.incidentsHandledOnward, if_neg htakes, if_neg htakes]
      refine append_left (fun failure hfailure ↦ hpasses failure hfailure ?_) _
      obtain rfl := Option.some.inj hfailure
      exact Bool.eq_false_iff.mpr htakes
  | fault message =>
    refine append_left (fun failure hfailure ↦ hpasses failure hfailure ?_) _
    obtain rfl := Option.some.inj hfailure
    rfl
  | exhausted => exact fun _ hfailure ↦ absurd hfailure (Option.some_ne_none _).symm

theorem deeper {part : World → Ending Result × World} {incidents : World → List Incident}
    (hpart : ∀ world, (part world).1.ExplainedBy (incidents world)) (world : World) :
    (world.deeper settings part).1.ExplainedBy (world.deeperIncidents settings incidents) := by
  by_cases hlimit : settings.limits.maxDepth ≤ world.depth
  · rw [World.deeper, World.deeperIncidents, if_pos hlimit, if_pos hlimit]
    exact of_incident [⟨.refuses, world, world⟩]
  · rw [World.deeper, World.deeperIncidents, if_neg hlimit, if_neg hlimit]
    exact (hpart _).after _

end Ending.ExplainedBy

section

variable {patience : Nat}
  {inside : {Answer : Type} → Request Answer → World → List Incident}
  (hinside : ∀ {Answer : Type} (request : Request Answer) (world : World),
    (request.answer settings patience world).1.ExplainedBy (inside request world))

include hinside

/-- Every failure with which a program ends has come up in it. -/
theorem Program.explained (owner : Owner) (program : Program Result) (world : World) :
    (program.runWithin settings patience world).1.ExplainedBy
      (program.incidents settings owner patience inside world) := by
  induction program generalizing world with
  | done => exact fun _ hfailure ↦ nomatch hfailure
  | @raise Result exception => exact @Ending.ExplainedBy.of_incident Result (.raised exception) []
  | @fault Result message => exact @Ending.ExplainedBy.of_incident Result (.fault message) []
  | perform effect next ih => exact Ending.ExplainedBy.onward (.of_incident _) ih
  | ask request next ih => exact Ending.ExplainedBy.onward (hinside request world) ih
  | @attempt Result Answer handler body next ihbody ihnext =>
    let guard : Guard := { owner, patience, handler, body, world }
    exact @Ending.ExplainedBy.handledOnward settings Result _ guard _ _ _ (ihbody world) ihnext

theorem Call.explained (callable : Value) (arguments : Arguments) (world : World) :
    (Call.run settings (Request.answer settings patience) callable arguments world).1.ExplainedBy
      (Call.incidents settings patience inside callable arguments world) := by
  have hprogram := Program.explained hinside (.call callable arguments)
    (Call.dispatch callable arguments)
  cases callable with
  | builtin builtin =>
    cases builtin with
    | function builtin => exact (hprogram _).after _
    | type | exception => exact hprogram world
  | _ => exact hprogram world

end

/-- Every failure in the answer to a request has come up in it. -/
theorem Request.explained (patience : Nat) (asker : Owner) {Answer : Type}
    (request : Request Answer) (world : World) :
    (request.answer settings patience world).1.ExplainedBy
      (request.incidents settings patience asker world) := by
  induction patience generalizing asker Answer request world with
  | zero => exact fun _ hfailure ↦ nomatch hfailure
  | succ patience ih =>
    have hinside : ∀ (asker : Owner) {Answer : Type} (request : Request Answer) (world : World),
        (request.answer settings patience world).1.ExplainedBy
          (request.raising (Request.incidents settings patience asker) world) :=
      fun asker _ request world ↦ (ih asker request world).after _
    cases request with
    | call callable arguments =>
      exact Ending.ExplainedBy.deeper
        (Call.explained (hinside (.call callable arguments)) callable arguments) world
    | runCode frame code =>
      exact Ending.ExplainedBy.deeper
        (Program.explained (hinside (.code frame code)) (.code frame code)
          (Script.runCode frame code)) world
    | drain iterator =>
      refine Ending.ExplainedBy.onward (Program.explained (hinside (.drain asker iterator))
        (.drain asker iterator) (Operation.advance iterator) world) ?_
      intro step reached
      cases step with
      | exhausted => exact fun _ hfailure ↦ nomatch hfailure
      | produced item =>
        intro failure hfailure
        rw [Ending.failure?_andThen_value] at hfailure
        exact ih asker (.drain iterator) reached failure hfailure

end

end Metaobject
