import Mathlib.Order.Filter.AtTopBot.Basic
import Metaobject.Proofs.Run.Termination

/-!
# Runs without an end

A run that ends with no patience whatever comes to the draining of an iterator of a user class that
gives item after item for ever (`Moment.DrainsForever`). Nothing else can go on without an end: with
enough patience a run either has come to its end or to such a draining (`Decided`). Programs do if
their requests do (`Program.Obeys.decided`), and requests do by induction on the levels that are
left below the limit of the call depth (`Request.isDecided`): a draining that is not decided after a
step was not decided before it, so its steps go on for ever.
-/

set_option autoImplicit false
set_option relaxedAutoImplicit false

namespace Metaobject

open Filter

/-! ### Draining without an end -/

/-- Whether the draining of an iterator gives item after item, from a world on: each step ends, with
some patience, and the next one begins where it has ended. -/
def Operation.YieldsForever (settings : Settings) (iterator : Value) (world : World) : Prop :=
  ∃ worlds : Nat → World, worlds 0 = world ∧ ∀ count, ∃ patience item,
    (advance iterator).run settings (Request.answer settings patience) (worlds count) =
      (.value (.produced item), worlds (count + 1))

/-- Whether the draining of an iterator of a user class begins at a moment and never ends. -/
def Moment.DrainsForever (settings : Settings) (moment : Moment) : Prop :=
  ∃ iterator, moment.action = .asks (.drain iterator) ∧
    moment.before.heap.lookup "__next__" (moment.before.heap.typeOf iterator) ≠ none ∧
    Operation.YieldsForever settings iterator moment.before

/-- Whether with enough patience a run has come to its end, or to a draining that never ends. -/
def Decided (settings : Settings) {Result : Type} (outcome : Nat → Ending Result × World)
    (history : Nat → List Moment) : Prop :=
  (∃ final, final.1 ≠ .exhausted ∧ ∀ᶠ patience in atTop, outcome patience = final) ∨
    ∃ moment, moment.DrainsForever settings ∧ ∀ᶠ patience in atTop, moment ∈ history patience

namespace Decided

variable {settings : Settings} {First Second : Type} {outcome : Nat → Ending First × World}
  {history : Nat → List Moment}

theorem of_ends {final : Ending First × World} (hends : final.1 ≠ .exhausted)
    (history : Nat → List Moment) : Decided settings (fun _ ↦ final) history :=
  .inl ⟨final, hends, .of_forall fun _ ↦ rfl⟩

/-- A run is decided if a part of it is whose end decides how it goes on. -/
theorem of_part {part : Nat → Ending Second × World} {within : Nat → List Moment}
    (hpart : Decided settings part within) (whole : Ending Second × World → Ending First × World)
    (hends : ∀ final, final.1 ≠ .exhausted → (whole final).1 ≠ .exhausted)
    (houtcome : ∀ᶠ patience in atTop, outcome patience = whole (part patience))
    (hwithin : ∀ᶠ patience in atTop, within patience ⊆ history patience) :
    Decided settings outcome history := by
  rcases hpart with ⟨final, hfinal, hsettled⟩ | ⟨moment, hforever, hmoment⟩
  · refine .inl ⟨whole final, hends final hfinal, ?_⟩
    filter_upwards [houtcome, hsettled] with patience houtcome hsettled
    rw [houtcome, hsettled]
  · refine .inr ⟨moment, hforever, ?_⟩
    filter_upwards [hwithin, hmoment] with patience hwithin hmoment
    exact hwithin hmoment

theorem congr {other : Nat → Ending First × World} {within : Nat → List Moment}
    (hdecided : Decided settings other within)
    (houtcome : ∀ᶠ patience in atTop, outcome patience = other patience)
    (hwithin : ∀ᶠ patience in atTop, within patience ⊆ history patience) :
    Decided settings outcome history :=
  hdecided.of_part id (fun _ hfinal ↦ hfinal) houtcome hwithin

/-- A patience more decides nothing else. -/
theorem of_succ (hnext : Decided settings (fun patience ↦ outcome (patience + 1))
    fun patience ↦ history (patience + 1)) : Decided settings outcome history := by
  have hshift (holds : Nat → Prop) (hlater : ∀ᶠ patience in atTop, holds (patience + 1)) :
      ∀ᶠ patience in atTop, holds patience := by
    rw [← map_add_atTop_eq_nat 1]
    exact eventually_map.mpr hlater
  rcases hnext with ⟨final, hfinal, hsettled⟩ | ⟨moment, hforever, hmoment⟩
  · exact .inl ⟨final, hfinal, hshift (outcome · = final) hsettled⟩
  · exact .inr ⟨moment, hforever, hshift (moment ∈ history ·) hmoment⟩

theorem andThen {next : Nat → First → World → Ending Second × World}
    {later : Nat → First → World → List Moment} (hfirst : Decided settings outcome history)
    (hnext : ∀ result world, (∃ patience, outcome patience = (.value result, world)) →
      Decided settings (fun patience ↦ next patience result world)
        (fun patience ↦ later patience result world)) :
    Decided settings (fun patience ↦ Ending.andThen (outcome patience) (next patience))
      (fun patience ↦ history patience ++ Ending.onward (outcome patience) (later patience)) := by
  rcases hfirst with ⟨final, hends, hsettled⟩ | ⟨moment, hforever, hmoment⟩
  · have hrest : Decided settings (fun patience ↦ Ending.andThen final (next patience))
        (fun patience ↦ Ending.onward final (later patience)) := by
      obtain ⟨ending, world⟩ := final
      cases ending with
      | value result => exact hnext result world hsettled.exists
      | raised exception => exact of_ends (Ending.raised_ne_exhausted exception) _
      | fault message => exact of_ends (Ending.fault_ne_exhausted message) _
      | exhausted => exact absurd rfl hends
    refine hrest.congr ?_ ?_
    · filter_upwards [hsettled] with patience hsettled
      rw [hsettled]
    · filter_upwards [hsettled] with patience hsettled
      rw [hsettled]
      exact List.subset_append_right _ _
  · exact .inr ⟨moment, hforever, hmoment.mono fun _ hmem ↦ List.mem_append_left _ hmem⟩

theorem handled {handler : Handler}
    {next : Nat → Except Exception First → World → Ending Second × World}
    {later : Nat → Except Exception First → World → List Moment}
    (hfirst : Decided settings outcome history)
    (hnext : ∀ result world, (∃ patience, (outcome patience).2 = world) →
      Decided settings (fun patience ↦ next patience result world)
        (fun patience ↦ later patience result world)) :
    Decided settings (fun patience ↦ Ending.handled handler (outcome patience) (next patience))
      (fun patience ↦ history patience ++
        Ending.handledOnward handler (outcome patience) (later patience)) := by
  rcases hfirst with ⟨final, hends, hsettled⟩ | ⟨moment, hforever, hmoment⟩
  · have hrest : Decided settings (fun patience ↦ Ending.handled handler final (next patience))
        (fun patience ↦ Ending.handledOnward handler final (later patience)) := by
      obtain ⟨patience, hpatience⟩ := hsettled.exists
      have hnext := fun result ↦ hnext result final.2 ⟨patience, congrArg Prod.snd hpatience⟩
      obtain ⟨ending, world⟩ := final
      cases ending with
      | value result => exact hnext (.ok result)
      | raised exception =>
        by_cases htaken : handler.takes exception = true
        · simp only [Ending.handled, Ending.handledOnward, if_pos htaken]
          exact hnext (.error exception)
        · simp only [Ending.handled, Ending.handledOnward, if_neg htaken]
          exact of_ends (Ending.raised_ne_exhausted exception) _
      | fault message => exact of_ends (Ending.fault_ne_exhausted message) _
      | exhausted => exact absurd rfl hends
    refine hrest.congr ?_ ?_
    · filter_upwards [hsettled] with patience hsettled
      rw [hsettled]
    · filter_upwards [hsettled] with patience hsettled
      rw [hsettled]
      exact List.subset_append_right _ _
  · exact .inr ⟨moment, hforever, hmoment.mono fun _ hmem ↦ List.mem_append_left _ hmem⟩

end Decided

/-! ### Programs -/

section

variable {settings : Settings}

/-- Whether a request is decided at a world. -/
def Request.IsDecided (settings : Settings) {Answer : Type} (request : Request Answer)
    (world : World) : Prop :=
  Decided settings (fun patience ↦ request.answer settings patience world)
    fun patience ↦ request.opening (Request.history settings patience) world

/-- A program is decided if the requests are that it may make. -/
theorem Program.Obeys.decided {policy : Policy} (hmarks : ∀ mark, policy.marks mark) {level : Nat}
    (hrequests : ∀ {Answer : Type} (request : Request Answer) (world : World),
      request.Permitted policy → world.depth = level → request.IsDecided settings world)
    {Result : Type} {program : Program Result} (hobeys : program.Obeys policy) {world : World}
    (hlevel : world.depth = level) :
    Decided settings
      (fun patience ↦ program.run settings (Request.answer settings patience) world)
      fun patience ↦ program.history settings (Request.answer settings patience)
        (Request.opening (Request.history settings patience)) world := by
  induction program generalizing world with
  | done result => exact .of_ends (Ending.value_ne_exhausted result) _
  | raise exception => exact .of_ends (Ending.raised_ne_exhausted exception) _
  | fault message => exact .of_ends (Ending.fault_ne_exhausted message) _
  | perform effect next ih =>
    have heffect : Decided settings (fun _ ↦ effect.answer settings world)
        fun _ ↦ [⟨.performs effect, world, (effect.answer settings world).2⟩] :=
      .of_ends (effect.answer_ends settings world) _
    refine heffect.andThen fun answer reached hreached ↦ ?_
    have hdepth := effect.answer_depth settings world
    obtain ⟨-, hvalue⟩ := hreached
    rw [hvalue] at hdepth
    exact ih answer (hobeys.2 answer (Effect.answers_of_marks hmarks effect answer))
      (hdepth.trans hlevel)
  | ask request next ih =>
    refine Decided.andThen (hrequests request world hobeys.1 hlevel)
      fun answer reached hreached ↦ ?_
    obtain ⟨patience, hvalue : request.answer settings patience world = _⟩ := hreached
    have hdepth := request.answer_depth settings patience world
    rw [hvalue] at hdepth
    exact ih answer (hobeys.2 answer) (hdepth.trans hlevel)
  | attempt handler body next ihbody ihnext =>
    refine (ihbody hobeys.2.1 hlevel).handled fun result reached hreached ↦ ?_
    obtain ⟨patience, rfl⟩ := hreached
    have hdepth := Program.run_depth settings
      (fun request ↦ request.answer_depth settings patience) body world
    exact ihnext result (hobeys.2.2 result) (hdepth.trans hlevel)

theorem Decided.deeper {Result : Type} {part : Nat → World → Ending Result × World}
    {history : Nat → World → List Moment} {world : World}
    (hpart : world.depth < settings.limits.maxDepth →
      Decided settings (fun patience ↦ part patience { world with depth := world.depth + 1 })
        fun patience ↦ history patience { world with depth := world.depth + 1 }) :
    Decided settings (fun patience ↦ world.deeper settings (part patience))
      fun patience ↦ world.deeperHistory settings (part patience) (history patience) := by
  by_cases hlimit : settings.limits.maxDepth ≤ world.depth
  · simp only [World.deeper, if_pos hlimit]
    exact .of_ends (Ending.raised_ne_exhausted _) _
  · simp only [World.deeper, World.deeperHistory, if_neg hlimit]
    refine (hpart (Nat.lt_of_not_le hlimit)).of_part
      (fun final ↦ (final.1, { final.2 with depth := final.2.depth - 1 }))
      (fun _ hfinal ↦ hfinal) (.of_forall fun _ ↦ rfl) (.of_forall fun patience moment hmoment ↦ ?_)
    exact List.mem_append_left _ (List.mem_cons_of_mem _ hmoment)

theorem Call.decided {level : Nat}
    (hrequests : ∀ {Answer : Type} (request : Request Answer) (world : World),
      request.Permitted .foreign → world.depth = level → request.IsDecided settings world)
    (callable : Value) (arguments : Arguments) {world : World} (hlevel : world.depth = level) :
    Decided settings
      (fun patience ↦ Call.run settings (Request.answer settings patience) callable arguments world)
      fun patience ↦ Call.history settings (Request.answer settings patience)
        (Request.opening (Request.history settings patience)) callable arguments world := by
  have hobeys := Call.obeys_dispatch (Policy.foreign_coversCall callable arguments)
  have hmarks : ∀ mark, Policy.foreign.marks mark := fun _ ↦ trivial
  cases callable with
  | builtin builtin =>
    cases builtin with
    | function builtin =>
      let began := TraceEvent.builtinCall builtin.name arguments.count world.depth
      have hbegan : (world.observe began).depth = level := hlevel
      have hprogram := hobeys.decided hmarks hrequests hbegan
      refine hprogram.of_part (fun final ↦ (final.1,
          final.2.observe (.builtinReturn builtin.name final.1.isValue world.depth)))
        (fun _ hfinal ↦ hfinal) (.of_forall fun _ ↦ rfl)
        (.of_forall fun patience moment hmoment ↦ ?_)
      exact List.mem_append_left _ (List.mem_cons_of_mem _ hmoment)
    | type | exception => exact hobeys.decided hmarks hrequests hlevel
  | _ => exact hobeys.decided hmarks hrequests hlevel

theorem Request.isDecided_of_history {Answer : Type} {request : Request Answer} {world : World}
    (hhistory : Decided settings (fun patience ↦ request.answer settings patience world)
      fun patience ↦ request.history settings patience world) : request.IsDecided settings world :=
  hhistory.congr (.of_forall fun _ ↦ rfl)
    (.of_forall fun _ _ hmoment ↦ List.mem_cons_of_mem _ hmoment)

/-- A call or the running of code is decided if the requests one level deeper are. -/
theorem Request.isDecided_of_deepens {Answer : Type} {request : Request Answer}
    (hdeepens : request.Deepens) {world : World}
    (hrequests : world.depth < settings.limits.maxDepth →
      ∀ {Answer : Type} (request : Request Answer) (inner : World),
        request.Permitted .foreign → inner.depth = world.depth + 1 →
          request.IsDecided settings inner) : request.IsDecided settings world := by
  refine Request.isDecided_of_history (.of_succ ?_)
  cases request with
  | call callable arguments =>
    exact .deeper fun hbelow ↦ Call.decided (hrequests hbelow) callable arguments rfl
  | runCode frame code =>
    have hobeys : (Script.runCode frame code).Obeys .foreign :=
      Script.obeys_runCode Policy.foreign_coversScripts ⟨trivial, trivial⟩ code
    exact .deeper fun hbelow ↦ hobeys.decided (fun _ ↦ trivial) (hrequests hbelow) rfl
  | drain => exact absurd hdeepens id

/-- The policy under which nothing is drained. Everything else is permitted. -/
def Policy.undraining : Policy :=
  { Policy.foreign with drains := fun _ ↦ False }

theorem Request.Permitted.deepens {Answer : Type} {request : Request Answer}
    (hpermitted : request.Permitted .undraining) : request.Deepens := by
  cases request with
  | call | runCode => trivial
  | drain => exact hpermitted

/-- A draining that is not decided gives an item, and is not decided after it either. -/
theorem Request.step_of_not_decided {iterator : Value} {level : Nat}
    (hrequests : ∀ {Answer : Type} (request : Request Answer) (world : World),
      request.Deepens → world.depth = level → request.IsDecided settings world)
    {world : World} (hlevel : world.depth = level)
    (hundecided : ¬Decided settings
      (fun patience ↦ (Request.drain iterator).answer settings patience world)
      fun patience ↦ (Request.drain iterator).history settings patience world) :
    ∃ reached patience item,
      (Operation.advance iterator).run settings (Request.answer settings patience) world =
        (.value (.produced item), reached) ∧ reached.depth = level ∧
      ¬Decided settings
        (fun patience ↦ (Request.drain iterator).answer settings patience reached)
        fun patience ↦ (Request.drain iterator).history settings patience reached := by
  have hobeys : (Operation.advance iterator).Obeys .undraining := Operation.obeys_advance trivial
  have hstep := hobeys.decided (fun _ ↦ trivial)
    (fun request world hpermitted ↦ hrequests request world hpermitted.deepens) hlevel
  by_contra hnone
  refine hundecided (.of_succ (hstep.andThen fun step reached hreached ↦ ?_))
  obtain ⟨patience, hvalue⟩ := hreached
  cases step with
  | exhausted => exact .of_ends (Ending.value_ne_exhausted _) _
  | produced item =>
    have hdepth := Program.run_depth settings
      (fun request ↦ request.answer_depth settings patience) (Operation.advance iterator) world
    have hlater := by_contra fun hopen ↦
      hnone ⟨reached, patience, item, hvalue, (hvalue ▸ hdepth).trans hlevel, hopen⟩
    refine Decided.of_part hlater
      (fun outcome ↦ Ending.andThen outcome fun items world ↦ (.value (item :: items), world))
      (fun final hfinal ↦ ?_) (.of_forall fun _ ↦ rfl) (.of_forall fun _ ↦ List.Subset.refl _)
    exact Ending.andThen_ends hfinal fun _ _ ↦ Ending.value_ne_exhausted _

/-- A draining that is not decided goes on for ever. -/
theorem Request.yieldsForever_of_not_decided {iterator : Value} {level : Nat}
    (hrequests : ∀ {Answer : Type} (request : Request Answer) (world : World),
      request.Deepens → world.depth = level → request.IsDecided settings world)
    {world : World} (hlevel : world.depth = level)
    (hundecided : ¬Decided settings
      (fun patience ↦ (Request.drain iterator).answer settings patience world)
      fun patience ↦ (Request.drain iterator).history settings patience world) :
    Operation.YieldsForever settings iterator world := by
  let Open := { world : World // world.depth = level ∧ ¬Decided settings
    (fun patience ↦ (Request.drain iterator).answer settings patience world)
    fun patience ↦ (Request.drain iterator).history settings patience world }
  have hstep (opened : Open) : ∃ later : Open, ∃ patience item,
      (Operation.advance iterator).run settings (Request.answer settings patience) opened.1 =
        (.value (.produced item), later.1) := by
    obtain ⟨reached, patience, item, hvalue, hdepth, hopen⟩ :=
      Request.step_of_not_decided hrequests opened.2.1 opened.2.2
    exact ⟨⟨reached, hdepth, hopen⟩, patience, item, hvalue⟩
  choose next hnext using hstep
  let opened (count : Nat) : Open := next^[count] ⟨world, hlevel, hundecided⟩
  have hopened (count : Nat) : opened (count + 1) = next (opened count) :=
    Function.iterate_succ_apply' next count _
  refine ⟨fun count ↦ (opened count).1, rfl, fun count ↦ ?_⟩
  simpa only [hopened count] using hnext (opened count)

/-- Every request is decided. -/
theorem Request.isDecided {Answer : Type} {request : Request Answer}
    (hpermitted : request.Permitted .foreign) (world : World) :
    request.IsDecided settings world := by
  induction hleft : settings.limits.maxDepth - world.depth using Nat.strong_induction_on
    generalizing Answer request world with
  | _ left ih =>
    have hdeeper : ∀ {Answer : Type} (request : Request Answer) (other : World),
        request.Deepens → other.depth = world.depth → request.IsDecided settings other :=
      fun request other hdeepens hlevel ↦ request.isDecided_of_deepens hdeepens
        fun hbelow _ _ inner hpermitted hdepth ↦
          ih (settings.limits.maxDepth - inner.depth) (by omega) hpermitted inner rfl
    cases request with
    | call | runCode => exact hdeeper _ world trivial rfl
    | drain iterator =>
      by_contra hundecided
      have hforever := Request.yieldsForever_of_not_decided hdeeper rfl fun hdecided ↦
        hundecided (Request.isDecided_of_history hdecided)
      have hfound : world.heap.lookup "__next__" (world.heap.typeOf iterator) ≠ none := by
        intro hnone
        obtain ⟨worlds, rfl, hworlds⟩ := hforever
        obtain ⟨patience, item, hvalue⟩ := hworlds 0
        rw [Operation.run_advance_of_none hpermitted hnone] at hvalue
        cases hvalue
      exact hundecided (.inr ⟨⟨.asks (.drain iterator), world, world⟩,
        ⟨iterator, rfl, hfound, hforever⟩, .of_forall fun _ ↦ List.mem_cons_self⟩)

end

/-! ### Steps of sessions -/

/-- A step that ends with no patience whatever comes to the draining of an iterator of a user class
that gives item after item for ever. -/
theorem Session.drainsForever_of_exhausted {session : Session} {statement : Script.Statement}
    (hexhausted : ∀ patience, (session.stepWithin patience statement).1 = .exhausted) :
    ∃ moment enough, moment.DrainsForever session.settings ∧
      ∀ patience, enough ≤ patience → moment ∈ session.history patience statement := by
  have hobeys : (Script.runStep session.frame statement).Obeys .foreign :=
    Script.obeys_runStep Policy.foreign_coversScripts ⟨trivial, trivial⟩ fun _ _ ↦ trivial
  have hdecided := hobeys.decided (fun _ ↦ trivial)
    (fun _ world hpermitted _ ↦ @Request.isDecided session.settings _ _ hpermitted world)
    (rfl : session.world.depth = _)
  rcases hdecided with ⟨final, hends, hsettled⟩ | ⟨moment, hforever, hmoment⟩
  · obtain ⟨patience, rfl⟩ := hsettled.exists
    exact absurd (hexhausted patience) hends
  · obtain ⟨enough, henough⟩ := eventually_atTop.mp hmoment
    exact ⟨moment, enough, hforever, henough⟩

end Metaobject
