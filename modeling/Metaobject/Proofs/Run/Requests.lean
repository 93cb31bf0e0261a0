import Metaobject.Proofs.Run.History

/-!
# The requests of a program

The requests that a run of a program makes itself, in order, each with the worlds before and after
its answer (`Program.asked`); what happens inside the answers is left out. A run with its requests
either gives a result (`Program.Gives`) or is cut (`Program.Stops`, `Cut`). The rules of this module
carry a run out step by step, whatever the answers to requests are: what follows a program is run
when it gives a result, and not at all when it stops.
-/

set_option autoImplicit false
set_option relaxedAutoImplicit false

namespace Metaobject

/-- Whether a moment is a request. -/
def Moment.isRequest (moment : Moment) : Bool :=
  match moment.action with
  | .asks _ => true
  | _ => false

theorem Ending.filter_onward {Result : Type} (keep : Moment → Bool)
    (outcome : Ending Result × World) (next : Result → World → List Moment) :
    (onward outcome next).filter keep =
      onward outcome fun result world ↦ (next result world).filter keep := by
  obtain ⟨ending, world⟩ := outcome
  cases ending <;> rfl

/-! ### Cuts -/

/-- How a run ends without a value, whatever the type of the value would be. -/
inductive Cut
  | raised (exception : Exception)
  | fault (message : String)
  | exhausted

/-- The ending of a run that is cut. -/
def Cut.ending {Result : Type} : Cut → Ending Result
  | .raised exception => .raised exception
  | .fault message => .fault message
  | .exhausted => .exhausted

namespace Cut

theorem ending_ne_value {Result : Type} (cut : Cut) (result : Result) :
    cut.ending ≠ .value result := by
  cases cut <;> exact fun hsame ↦ nomatch hsame

theorem ending_injective {Result : Type} {first second : Cut}
    (hsame : (first.ending : Ending Result) = second.ending) : first = second := by
  cases first <;> cases second <;> cases hsame <;> rfl

theorem andThen_ending {First Second : Type} (cut : Cut) (world : World)
    (next : First → World → Ending Second × World) :
    Ending.andThen (cut.ending, world) next = (cut.ending, world) := by
  cases cut <;> rfl

theorem onward_ending {Result : Type} (cut : Cut) (world : World)
    (next : Result → World → List Moment) : Ending.onward (cut.ending, world) next = [] := by
  cases cut <;> rfl

end Cut

/-- A run ends with a value or is cut. -/
theorem Ending.value_or_cut {Result : Type} (outcome : Ending Result × World) :
    (∃ result, outcome = (.value result, outcome.2)) ∨
      ∃ cut : Cut, outcome = (cut.ending, outcome.2) := by
  obtain ⟨ending, world⟩ := outcome
  cases ending with
  | value result => exact Or.inl ⟨result, rfl⟩
  | raised exception => exact Or.inr ⟨.raised exception, rfl⟩
  | fault message => exact Or.inr ⟨.fault message, rfl⟩
  | exhausted => exact Or.inr ⟨.exhausted, rfl⟩

/-! ### Requests -/

section

variable (settings : Settings)
  (respond : {Answer : Type} → Request Answer → World → Ending Answer × World)

/-- The moment at which a request is answered as a whole. -/
def Request.moment {Answer : Type} (request : Request Answer) (world : World) : Moment :=
  ⟨.asks request, world, (respond request world).2⟩

/-- The requests that a run of a program makes. -/
def Program.asked {Result : Type} (program : Program Result) (world : World) : List Moment :=
  (program.history settings respond (fun request world ↦ [request.moment respond world])
    world).filter Moment.isRequest

theorem Program.asked_bind {First Second : Type} (program : Program First)
    (next : First → Program Second) (world : World) :
    (program >>= next).asked settings respond world =
      program.asked settings respond world ++
        Ending.onward (program.run settings respond world) fun result ↦
          (next result).asked settings respond := by
  show ((program.bind next).history _ _ _ world).filter _ = _
  rw [Program.history_bind, List.filter_append, Ending.filter_onward]
  rfl

theorem Program.run_bind_apply {First Second : Type} (program : Program First)
    (next : First → Program Second) (world : World) :
    (program >>= next).run settings respond world =
      Ending.andThen (program.run settings respond world) fun result ↦
        (next result).run settings respond :=
  congrFun (Program.run_bind settings respond program next) world

/-- Whether a run makes the given requests and gives a result. -/
structure Program.Gives {Result : Type} (program : Program Result) (world : World)
    (asked : List Moment) (result : Result) (final : World) : Prop where
  asked : program.asked settings respond world = asked
  run : program.run settings respond world = (.value result, final)

/-- Whether a run goes on, without a request, as the run of another program does. -/
structure Program.Leads {Result : Type} (program : Program Result) (world : World)
    (next : Program Result) (middle : World) : Prop where
  asked : program.asked settings respond world = next.asked settings respond middle
  run : program.run settings respond world = next.run settings respond middle

/-- Whether a run makes the given requests and is cut. -/
structure Program.Stops {Result : Type} (program : Program Result) (world : World)
    (asked : List Moment) (cut : Cut) (final : World) : Prop where
  asked : program.asked settings respond world = asked
  run : program.run settings respond world = (cut.ending, final)

end

namespace Program

variable {settings : Settings}
  {respond : {Answer : Type} → Request Answer → World → Ending Answer × World}
  {First Second Result : Type} {world middle final : World} {earlier later : List Moment}
  {cut : Cut}

/-! ### Sequences -/

theorem Gives.asked_bind {program : Program First} {result : First}
    (hprogram : program.Gives settings respond world earlier result middle)
    (next : First → Program Second) :
    (program >>= next).asked settings respond world =
      earlier ++ (next result).asked settings respond middle := by
  rw [Program.asked_bind, hprogram.asked, hprogram.run]
  rfl

theorem Gives.run_bind {program : Program First} {result : First}
    (hprogram : program.Gives settings respond world earlier result middle)
    (next : First → Program Second) :
    (program >>= next).run settings respond world = (next result).run settings respond middle := by
  rw [run_bind_apply, hprogram.run]
  rfl

theorem Gives.bind {program : Program First} {next : First → Program Second} {result : First}
    {last : Second} (hprogram : program.Gives settings respond world earlier result middle)
    (hnext : (next result).Gives settings respond middle later last final) :
    (program >>= next).Gives settings respond world (earlier ++ later) last final :=
  ⟨by rw [hprogram.asked_bind, hnext.asked], (hprogram.run_bind next).trans hnext.run⟩

theorem Gives.bind_stops {program : Program First} {next : First → Program Second}
    {result : First} (hprogram : program.Gives settings respond world earlier result middle)
    (hnext : (next result).Stops settings respond middle later cut final) :
    (program >>= next).Stops settings respond world (earlier ++ later) cut final :=
  ⟨by rw [hprogram.asked_bind, hnext.asked], (hprogram.run_bind next).trans hnext.run⟩

theorem Gives.leads {program : Program First} {result : First}
    (hprogram : program.Gives settings respond world [] result middle)
    (next : First → Program Second) :
    (program >>= next).Leads settings respond world (next result) middle :=
  ⟨hprogram.asked_bind next, hprogram.run_bind next⟩

/-- Nothing follows a program that stops. -/
theorem Stops.bind {program : Program First}
    (hprogram : program.Stops settings respond world earlier cut final)
    (next : First → Program Second) :
    (program >>= next).Stops settings respond world earlier cut final where
  asked := by
    rw [Program.asked_bind, hprogram.asked, hprogram.run, cut.onward_ending, List.append_nil]
  run := by rw [run_bind_apply, hprogram.run, cut.andThen_ending]

/-! ### Handlers -/

theorem asked_attempt {Answer : Type} {handler : Handler} {body : Program Answer}
    {next : Except Exception Answer → Program Result} :
    (attempt handler body next).asked settings respond world =
      body.asked settings respond world ++
        Ending.handledOnward handler (body.run settings respond world) fun result ↦
          (next result).asked settings respond := by
  refine (List.filter_append _ _).trans (congrArg _ ?_)
  generalize body.run settings respond world = outcome
  obtain ⟨ending, after⟩ := outcome
  cases ending with
  | value | fault | exhausted => rfl
  | raised exception =>
    by_cases htaken : handler.takes exception = true
    · simp only [Ending.handledOnward, if_pos htaken]
      rfl
    · simp only [Ending.handledOnward, if_neg htaken]
      rfl

theorem run_handling (handler : Handler) (program : Program Result) (world : World) :
    (handling handler program).run settings respond world =
      Ending.handled handler (program.run settings respond world) fun result world ↦
        (.value result, world) :=
  rfl

theorem asked_handling (handler : Handler) (program : Program Result) (world : World) :
    (handling handler program).asked settings respond world =
      program.asked settings respond world := by
  refine asked_attempt.trans ((congrArg _ ?_).trans (List.append_nil _))
  generalize program.run settings respond world = outcome
  obtain ⟨ending, after⟩ := outcome
  cases ending with
  | raised exception => exact ite_self []
  | value | fault | exhausted => rfl

theorem Gives.handling {program : Program Result} {result : Result}
    (hprogram : program.Gives settings respond world earlier result final) (handler : Handler) :
    (handling handler program).Gives settings respond world earlier (.ok result) final :=
  ⟨(asked_handling handler program world).trans hprogram.asked, by
    rw [run_handling, hprogram.run]; rfl⟩

/-- An exception that the handler takes is a result. -/
theorem Stops.handling_of_takes {program : Program Result} {handler : Handler}
    {exception : Exception}
    (hprogram : program.Stops settings respond world earlier (.raised exception) final)
    (htakes : handler.takes exception = true) :
    (handling handler program).Gives settings respond world earlier (.error exception) final :=
  ⟨(asked_handling handler program world).trans hprogram.asked, by
    rw [run_handling, hprogram.run]
    exact if_pos htakes⟩

/-- Whatever else cuts a program also cuts it inside a handler. -/
theorem Stops.handling {program : Program Result} {handler : Handler}
    (hprogram : program.Stops settings respond world earlier cut final)
    (hother : ∀ exception, cut = .raised exception → handler.takes exception = false) :
    (handling handler program).Stops settings respond world earlier cut final := by
  refine ⟨(asked_handling handler program world).trans hprogram.asked, ?_⟩
  rw [run_handling, hprogram.run]
  cases cut with
  | raised exception => exact if_neg (Bool.eq_false_iff.mp (hother exception rfl))
  | fault | exhausted => rfl

/-! ### Going on -/

section

variable {program next : Program Result}

theorem Leads.trans {last : Program Result} {reached : World}
    (hfirst : program.Leads settings respond world next middle)
    (hsecond : next.Leads settings respond middle last reached) :
    program.Leads settings respond world last reached :=
  ⟨hfirst.asked.trans hsecond.asked, hfirst.run.trans hsecond.run⟩

theorem Leads.gives {result : Result} (hleads : program.Leads settings respond world next middle)
    (hnext : next.Gives settings respond middle later result final) :
    program.Gives settings respond world later result final :=
  ⟨hleads.asked.trans hnext.asked, hleads.run.trans hnext.run⟩

theorem Leads.stops (hleads : program.Leads settings respond world next middle)
    (hnext : next.Stops settings respond middle later cut final) :
    program.Stops settings respond world later cut final :=
  ⟨hleads.asked.trans hnext.asked, hleads.run.trans hnext.run⟩

end

/-! ### Single steps -/

theorem gives_done (result : Result) (world : World) :
    (pure result : Program Result).Gives settings respond world [] result world :=
  ⟨rfl, rfl⟩

theorem stops_raise (exception : Exception) (world : World) :
    (raise exception : Program Result).Stops settings respond world [] (.raised exception) world :=
  ⟨rfl, rfl⟩

theorem stops_fault (message : String) (world : World) :
    (fault message : Program Result).Stops settings respond world [] (.fault message) world :=
  ⟨rfl, rfl⟩

theorem gives_ofExcept {outcome : Except Exception Result} {result : Result}
    (houtcome : outcome = .ok result) (world : World) :
    (ofExcept outcome).Gives settings respond world [] result world :=
  houtcome ▸ gives_done result world

theorem stops_ofExcept {outcome : Except Exception Result} {exception : Exception}
    (houtcome : outcome = .error exception) (world : World) :
    (ofExcept outcome).Stops settings respond world [] (.raised exception) world :=
  houtcome ▸ stops_raise exception world

theorem gives_heap (world : World) : heap.Gives settings respond world [] world.heap world :=
  ⟨rfl, rfl⟩

theorem leads_heap (next : Heap → Program Result) (world : World) :
    (heap >>= next).Leads settings respond world (next world.heap) world :=
  (gives_heap world).leads next

theorem asked_effect (effect : Effect Result) (world : World) :
    (Program.effect effect).asked settings respond world = [] := by
  show (_ :: Ending.onward (effect.answer settings world) fun _ _ ↦ []).filter
    Moment.isRequest = _
  rw [Ending.onward_nil]
  rfl

theorem run_effect (effect : Effect Result) (world : World) :
    (Program.effect effect).run settings respond world = effect.answer settings world :=
  Ending.andThen_done _

theorem gives_effect {effect : Effect Result} {answer : Result}
    (hanswer : effect.answer settings world = (.value answer, final)) :
    (Program.effect effect).Gives settings respond world [] answer final :=
  ⟨asked_effect effect world, (run_effect effect world).trans hanswer⟩

theorem stops_effect {effect : Effect Result}
    (hanswer : effect.answer settings world = (cut.ending, final)) :
    (Program.effect effect).Stops settings respond world [] cut final :=
  ⟨asked_effect effect world, (run_effect effect world).trans hanswer⟩

theorem asked_request (request : Request Result) (world : World) :
    (Program.request request).asked settings respond world =
      [request.moment respond world] := by
  show ([request.moment respond world] ++ Ending.onward (respond request world) fun _ _ ↦
    []).filter Moment.isRequest = _
  rw [Ending.onward_nil]
  rfl

theorem run_request (request : Request Result) (world : World) :
    (Program.request request).run settings respond world = respond request world :=
  Ending.andThen_done _

theorem gives_request {request : Request Result} {answer : Result}
    (hanswer : respond request world = (.value answer, final)) :
    (Program.request request).Gives settings respond world [request.moment respond world] answer
      final :=
  ⟨asked_request request world, (run_request request world).trans hanswer⟩

theorem stops_request {request : Request Result}
    (hanswer : respond request world = (cut.ending, final)) :
    (Program.request request).Stops settings respond world [request.moment respond world] cut
      final :=
  ⟨asked_request request world, (run_request request world).trans hanswer⟩

end Program

/-! ### Plain runs -/

/-- Standard limits, with scripts and without compiler and importer. -/
def Settings.scripted : Settings := ⟨Limits.standard, true, false, none⟩

/-- A world without objects, whose output is discarded and which is not observed. -/
def World.blank : World := .start .discarding .silent

end Metaobject
