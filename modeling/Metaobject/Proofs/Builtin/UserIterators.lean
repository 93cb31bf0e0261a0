import Metaobject.Proofs.Builtin.Iteration
import Metaobject.Proofs.Run.Termination

/-!
# Iterating over user iterators

A user iterator has a method `__next__` that gives its items (`NextCalls`). Draining it calls this
method until a call is cut, and that is one call more than there are items
(`NextCalls.drained`, `NextCalls.length_eq`). The calls are read off the history of the draining
(`Request.history_drain`, `Request.drainCalls`). Only a `StopIteration` itself ends the draining
with the items; everything else ends it in the same way (`Cut.afterItems`). So does a call of `list`
on a user iterator that is its own iterator (`UserListing`, `NextCalls.userListing`).
-/

set_option autoImplicit false
set_option relaxedAutoImplicit false

namespace Metaobject

/-! ### Calls of methods -/

section

variable {settings : Settings}
  {respond : {Answer : Type} → Request Answer → World → Ending Answer × World}
  {world final : World} {receiver method : Value} {name : String} {arguments : List Value}
  {cut : Cut}

/-- The call of a method on its receiver alone. -/
def methodCall (method receiver : Value) : Request Value := .call method (.ofList [receiver])

/-- A moment at which a request is made and answered. -/
def Request.answered {Answer : Type} (request : Request Answer) (before after : World) : Moment :=
  ⟨.asks request, before, after⟩

/-- Native values have no capabilities by methods of a class. -/
theorem foreign_of_lookup
    (hmethod : world.heap.lookup name (world.heap.typeOf receiver) = some method) :
    (∀ address, receiver ≠ .iterator address) ∧
      Operation.nativeItems? world.heap receiver = none := by
  cases receiver with
  | object | userClass | exception => exact ⟨fun _ hsame ↦ (nomatch hsame), rfl⟩
  | builtin builtin => cases builtin <;> cases hmethod
  | _ => cases hmethod

namespace Capability

theorem gives_invoke? {result : Value}
    (hmethod : world.heap.lookup name (world.heap.typeOf receiver) = some method)
    (hcall : respond (methodCall method receiver) world = (.value result, final)) :
    (invoke? receiver name [] none).Gives settings respond world
      [(methodCall method receiver).answered world final] (some result) final := by
  refine (Program.leads_heap _ world).gives ?_
  rw [hmethod]
  have hgives : (Program.call method (.ofList [receiver]) >>= fun answer ↦
      pure (some answer)).Gives settings respond world _ (some result) final :=
    (Program.gives_request hcall).bind (Program.gives_done _ _)
  rw [Request.moment, show respond _ world = _ from hcall] at hgives
  exact hgives

theorem stops_invoke?
    (hmethod : world.heap.lookup name (world.heap.typeOf receiver) = some method)
    (hcall : respond (methodCall method receiver) world = (cut.ending, final)) :
    (invoke? receiver name [] none).Stops settings respond world
      [(methodCall method receiver).answered world final] cut final := by
  refine (Program.leads_heap _ world).stops ?_
  rw [hmethod]
  have hstops : (Program.call method (.ofList [receiver]) >>= fun answer ↦
      pure (some answer)).Stops settings respond world _ cut final :=
    (Program.stops_request hcall).bind _
  rw [Request.moment, show respond _ world = _ from hcall] at hstops
  exact hstops

end Capability

namespace Operation

theorem gives_advance_item {item : Value}
    (hmethod : world.heap.lookup "__next__" (world.heap.typeOf receiver) = some method)
    (hcall : respond (methodCall method receiver) world = (.value item, final)) :
    (advance receiver).Gives settings respond world
      [(methodCall method receiver).answered world final] (.produced item) final := by
  rw [advance_eq (foreign_of_lookup hmethod).1]
  exact ((Capability.gives_invoke? hmethod hcall).handling _).bind (Program.gives_done _ _)

/-- `StopIteration` itself is exhaustion. -/
theorem gives_advance_signal {signal : Exception} (hsignal : signal.cls = .stopIteration)
    (hmethod : world.heap.lookup "__next__" (world.heap.typeOf receiver) = some method)
    (hcall : respond (methodCall method receiver) world = (.raised signal, final)) :
    (advance receiver).Gives settings respond world
      [(methodCall method receiver).answered world final] (.exhausted (some signal)) final := by
  rw [advance_eq (foreign_of_lookup hmethod).1]
  have hstops : (Capability.invoke? receiver "__next__" [] none).Stops settings respond world _
      (.raised signal) final := Capability.stops_invoke? hmethod hcall
  have htakes : (Handler.exactly .stopIteration).takes signal = true := beq_iff_eq.mpr hsignal
  exact (hstops.handling_of_takes htakes).bind (Program.gives_done _ _)

/-- Everything else is a failure. -/
theorem stops_advance (hother : ∀ exception, cut = .raised exception →
      exception.cls ≠ .stopIteration)
    (hmethod : world.heap.lookup "__next__" (world.heap.typeOf receiver) = some method)
    (hcall : respond (methodCall method receiver) world = (cut.ending, final)) :
    (advance receiver).Stops settings respond world
      [(methodCall method receiver).answered world final] cut final := by
  rw [advance_eq (foreign_of_lookup hmethod).1]
  refine ((Capability.stops_invoke? hmethod hcall).handling fun exception hcut ↦ ?_).bind _
  exact beq_eq_false_iff_ne.mpr (hother exception hcut)

end Operation

end

/-! ### Draining a user iterator -/

/-- The calls of `__next__` on a user iterator, one after the other, each answered with a given
patience: those that give items, and the last one, which is cut. -/
inductive NextCalls (settings : Settings) (patience : Nat) (iterator : Value) :
    World → List Value → List Moment → Cut → World → Prop
  | last {world final : World} {method : Value} {cut : Cut}
      (hmethod : world.heap.lookup "__next__" (world.heap.typeOf iterator) = some method)
      (hcall : (methodCall method iterator).answer settings patience world = (cut.ending, final)) :
      NextCalls settings patience iterator world []
        [(methodCall method iterator).answered world final] cut final
  | item {world middle final : World} {method item : Value} {items : List Value}
      {calls : List Moment} {cut : Cut}
      (hmethod : world.heap.lookup "__next__" (world.heap.typeOf iterator) = some method)
      (hcall : (methodCall method iterator).answer settings patience world = (.value item, middle))
      (hrest : NextCalls settings patience iterator middle items calls cut final) :
      NextCalls settings patience iterator world (item :: items)
        ((methodCall method iterator).answered world middle :: calls) cut final

/-- How an iteration ends when `__next__` is cut: with the items if that was a `StopIteration`
itself, and else in the same way. -/
def Cut.afterItems (items : List Value) : Cut → Ending (List Value)
  | .raised exception =>
    if exception.cls = .stopIteration then .value items else .raised exception
  | .fault message => .fault message
  | .exhausted => .exhausted

theorem Cut.afterItems_of_other {cut : Cut}
    (hother : ∀ exception, cut = .raised exception → exception.cls ≠ .stopIteration)
    (items : List Value) : cut.afterItems items = cut.ending := by
  cases cut with
  | raised exception => exact if_neg (hother exception rfl)
  | fault | exhausted => rfl

/-- One more item is one more item in front. -/
theorem Cut.afterItems_cons (cut : Cut) (item : Value) (items : List Value) (world : World) :
    Ending.andThen (cut.afterItems items, world) (fun rest reached ↦
      (.value (item :: rest), reached)) = (cut.afterItems (item :: items), world) := by
  cases cut with
  | raised exception =>
    by_cases hstops : exception.cls = .stopIteration
    · rw [afterItems, afterItems, if_pos hstops, if_pos hstops]
      rfl
    · rw [afterItems, afterItems, if_neg hstops, if_neg hstops]
      rfl
  | fault | exhausted => rfl

/-- What happens in a draining, given what happens for its requests. -/
def Request.drainHistory (settings : Settings)
    (inside : Nat → {Answer : Type} → Request Answer → World → List Moment) :
    (patience : Nat) → (iterator : Value) → World → List Moment
  | 0, _, _ => []
  | patience + 1, iterator, world =>
    (Operation.advance iterator).history settings (Request.answer settings patience)
        (inside patience) world ++
      Ending.onward ((Operation.advance iterator).run settings (Request.answer settings patience)
        world) fun step world ↦
          match step with
          | .exhausted _ => []
          | .produced _ => drainHistory settings inside patience iterator world

theorem Request.history_drain (settings : Settings) (patience : Nat) (iterator : Value)
    (world : World) :
    Request.history settings patience (.drain iterator) world =
      Request.drainHistory settings (fun patience ↦ Request.opening (Request.history settings
        patience)) patience iterator world := by
  induction patience generalizing world with
  | zero => rfl
  | succ patience ih =>
    rw [history, drainHistory]
    refine congrArg (_ ++ ·) (congrArg (Ending.onward _) ?_)
    funext step reached
    cases step with
    | exhausted => rfl
    | produced => exact ih reached

/-- The requests that a draining makes itself, each with the worlds before and after its answer:
its history, with what happens inside the answers left out. -/
def Request.drainCalls (settings : Settings) (patience : Nat) (iterator : Value) (world : World) :
    List Moment :=
  (drainHistory settings (fun patience {_} request world ↦
    [request.moment (Request.answer settings patience) world]) patience iterator world).filter
      Moment.isRequest

/-- These are the requests of a step, and then those of the rest if the step has given an item. -/
theorem Request.drainCalls_succ (settings : Settings) (patience : Nat) (iterator : Value)
    (world : World) :
    drainCalls settings (patience + 1) iterator world =
      (Operation.advance iterator).asked settings (Request.answer settings patience) world ++
        Ending.onward ((Operation.advance iterator).run settings (Request.answer settings patience)
          world) fun step reached ↦
            match step with
            | .exhausted _ => []
            | .produced _ => drainCalls settings patience iterator reached := by
  rw [drainCalls, drainHistory, List.filter_append, Ending.filter_onward]
  refine congrArg (_ ++ ·) (congrArg (Ending.onward _) ?_)
  funext step reached
  cases step <;> rfl

section

variable {settings : Settings} {patience more : Nat} {iterator : Value} {world final : World}
  {items : List Value} {calls : List Moment} {cut : Cut}

/-- `__next__` is called once more than it gives an item. -/
theorem NextCalls.length_eq
    (hcalls : NextCalls settings patience iterator world items calls cut final) :
    calls.length = items.length + 1 := by
  induction hcalls with
  | last => rfl
  | item _ _ _ ih => exact congrArg (· + 1) ih

/-- Draining a user iterator makes these calls and no others, and gives their items if the last one
raises `StopIteration`; otherwise it ends as the last one does. -/
theorem NextCalls.drained
    (hcalls : NextCalls settings patience iterator world items calls cut final)
    (hends : cut ≠ .exhausted) (hmore : patience + items.length < more) :
    Request.drainCalls settings more iterator world = calls ∧
      (Request.drain iterator).answer settings more world = (cut.afterItems items, final) := by
  induction hcalls generalizing more with
  | @last world final method cut hmethod hcall =>
    obtain ⟨enough, rfl⟩ := Nat.exists_eq_succ_of_ne_zero (Nat.ne_zero_of_lt hmore)
    -- The draining has more patience left than the call was answered with, which changes nothing.
    have hsettled : (methodCall method iterator).answer settings enough world =
        (cut.ending, final) :=
      (Request.settles settings (by omega) _ world (by
        rw [hcall]
        exact fun hsame ↦ hends (Cut.ending_injective hsame))).trans hcall
    by_cases hstops : ∃ signal, cut = .raised signal ∧ signal.cls = .stopIteration
    · obtain ⟨signal, rfl, hsignal⟩ := hstops
      have hadvance : (Operation.advance iterator).Gives settings
          (Request.answer settings enough) world _ _ _ :=
        Operation.gives_advance_signal hsignal hmethod hsettled
      refine ⟨?_, ?_⟩
      · rw [Request.drainCalls_succ, hadvance.asked, hadvance.run]
        rfl
      · rw [Request.answer_drain_exhausted hadvance.run, Cut.afterItems, if_pos hsignal]
    · have hother : ∀ exception, cut = .raised exception → exception.cls ≠ .stopIteration :=
        fun exception hcut hsignal ↦ hstops ⟨exception, hcut, hsignal⟩
      have hadvance : (Operation.advance iterator).Stops settings
          (Request.answer settings enough) world _ _ _ :=
        Operation.stops_advance hother hmethod hsettled
      refine ⟨?_, ?_⟩
      · rw [Request.drainCalls_succ, hadvance.asked, hadvance.run, cut.onward_ending,
          List.append_nil]
      · rw [Request.answer_drain_cut hadvance.run, Cut.afterItems_of_other hother]
  | @item world middle final method item items calls cut hmethod hcall hrest ih =>
    obtain ⟨enough, rfl⟩ := Nat.exists_eq_succ_of_ne_zero (Nat.ne_zero_of_lt hmore)
    rw [List.length_cons] at hmore
    have hsettled : (methodCall method iterator).answer settings enough world =
        (.value item, middle) :=
      (Request.settles settings (by omega) _ world (by
        rw [hcall]
        exact fun hsame ↦ nomatch hsame)).trans hcall
    have hadvance : (Operation.advance iterator).Gives settings
        (Request.answer settings enough) world _ _ _ :=
      Operation.gives_advance_item hmethod hsettled
    obtain ⟨hlater, hdrained⟩ := @ih enough hends (by omega)
    refine ⟨?_, ?_⟩
    · rw [Request.drainCalls_succ, hadvance.asked, hadvance.run]
      exact congrArg _ hlater
    · rw [Request.answer_drain_produced hadvance.run, hdrained]
      exact cut.afterItems_cons item items final

end

/-! ### Listing a user iterator -/

section

variable {settings : Settings}
  {respond : {Answer : Type} → Request Answer → World → Ending Answer × World}
  {world middle final : World} {iterator method : Value} {items : List Value}
  (hmethod : world.heap.lookup "__iter__" (world.heap.typeOf iterator) = some method)
  (hcall : respond (methodCall method iterator) world = (.value iterator, middle))

include hmethod hcall

/-- A user iterator is its own iterator if `__iter__` says so. -/
theorem Operation.gives_iterate_user :
    (iterate iterator).Gives settings respond world
      [(methodCall method iterator).answered world middle] iterator middle := by
  obtain ⟨hforeign, hnative⟩ := foreign_of_lookup hmethod
  have hinvoke : (Capability.invoke iterator "__iter__" [] fun heap ↦
      .notIterable (heap.typeName iterator)).Gives settings respond world
        [(methodCall method iterator).answered world middle] iterator middle :=
    (Capability.gives_invoke? hmethod hcall).bind (Program.gives_done _ _)
  cases iterator with
  | iterator address => exact absurd rfl (hforeign address)
  | _ =>
    refine (Program.leads_heap _ world).gives ?_
    rw [hnative]
    exact hinvoke

/-- Collecting the items of a user iterator is draining it. -/
theorem Operation.leads_collect_user :
    (collect iterator).asked settings respond world =
        (methodCall method iterator).answered world middle ::
          (Program.request (.drain iterator)).asked settings respond middle ∧
      (collect iterator).run settings respond world =
        (Program.request (.drain iterator)).run settings respond middle := by
  obtain ⟨hforeign, hnative⟩ := foreign_of_lookup hmethod
  have hiterate : (iterate iterator).Gives settings respond world _ iterator middle :=
    gives_iterate_user hmethod hcall
  cases iterator with
  | iterator address => exact absurd rfl (hforeign address)
  | tuple | list => cases hnative
  | _ => exact ⟨hiterate.asked_bind _, hiterate.run_bind _⟩

end

/-- How `list` of a user iterator runs in a session: an iterator that is its own, and of which
`__next__` is called as given, up to a call that is cut. -/
structure UserListing (settings : Settings) (patience : Nat) (iterator method : Value)
    (world middle : World) (items : List Value) (calls : List Moment) (cut : Cut)
    (final : World) : Prop where
  /-- It calls `__iter__` once and then drains the iterator. -/
  asked : (listOf iterator).asked settings (Request.answer settings patience) world =
    [(methodCall method iterator).answered world middle,
      (Request.drain iterator).answered middle final]
  /-- That makes the calls of `__next__`. -/
  drains : Request.drainCalls settings patience iterator middle = calls
  /-- They are one more than there are items. -/
  count : calls.length = items.length + 1
  /-- After `StopIteration` itself the items are in a new list. -/
  lists (signal : Exception) (hcut : cut = .raised signal) (hsignal : signal.cls = .stopIteration) :
    (listOf iterator).run settings (Request.answer settings patience) world =
      (.value (.list final.heap.size), final.mapHeap (·.allocate (.list items)))
  /-- Everything else ends it in the same way. -/
  fails (hother : ∀ exception, cut = .raised exception → exception.cls ≠ .stopIteration) :
    (listOf iterator).run settings (Request.answer settings patience) world = (cut.ending, final)

theorem NextCalls.userListing {settings : Settings} {patience more : Nat} {iterator method : Value}
    {world middle final : World} {items : List Value} {calls : List Moment} {cut : Cut}
    (hcalls : NextCalls settings patience iterator middle items calls cut final)
    (hmethod : world.heap.lookup "__iter__" (world.heap.typeOf iterator) = some method)
    (hself : (methodCall method iterator).answer settings patience world =
      (.value iterator, middle))
    (hends : cut ≠ .exhausted) (hmore : patience + items.length < more) :
    UserListing settings more iterator method world middle items calls cut final := by
  have hsettled : (methodCall method iterator).answer settings more world =
      (.value iterator, middle) :=
    (Request.settles settings (by omega) _ world (by
      rw [hself]
      exact fun hsame ↦ nomatch hsame)).trans hself
  obtain ⟨hdrainCalls, hdrained⟩ := hcalls.drained hends hmore
  obtain ⟨hasked, hrun⟩ := @Operation.leads_collect_user settings
    (Request.answer settings more) world middle iterator method hmethod hsettled
  rw [Program.asked_request, Request.moment, hdrained] at hasked
  rw [Program.run_request, hdrained] at hrun
  by_cases hstops : ∃ signal, cut = .raised signal ∧ signal.cls = .stopIteration
  · obtain ⟨signal, rfl, hsignal⟩ := hstops
    rw [Cut.afterItems, if_pos hsignal] at hrun
    have hlist := gives_listOf ⟨hasked, hrun⟩
    exact ⟨hlist.asked, hdrainCalls, hcalls.length_eq, fun _ _ _ ↦ hlist.run,
      fun hother ↦ absurd hsignal (hother signal rfl)⟩
  · have hother : ∀ exception, cut = .raised exception → exception.cls ≠ .stopIteration :=
      fun exception hcut hsignal ↦ hstops ⟨exception, hcut, hsignal⟩
    rw [Cut.afterItems_of_other hother] at hrun
    have hlist := stops_listOf ⟨hasked, hrun⟩
    exact ⟨hlist.asked, hdrainCalls, hcalls.length_eq,
      fun signal hcut hsignal ↦ absurd hsignal (hother signal hcut), fun _ ↦ hlist.run⟩

end Metaobject
