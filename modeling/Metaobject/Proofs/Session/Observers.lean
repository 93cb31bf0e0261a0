import Metaobject.Proofs.Run.Simulation

/-!
# Sessions under different observers

An observer takes the events of a run and gives nothing back. Every effect is answered alike
whatever the observer is, and hands it the same events (`Effect.answer_watchedBy`), so the worlds of
two runs that differ in the observer follow each other (`World.Follow`): they are the same but for
the observers, and these have taken the same events.

What a limited observer has taken in the end is a prefix of what an unlimited one has taken. The two
limits are kept differently, one by the length of what is recorded and one by a count of lines, and
both come to the first events up to the limit (`Observer.after_recording`,
`Observer.after_printing`); a notice follows the last line at the limit.
-/

set_option autoImplicit false
set_option relaxedAutoImplicit false

namespace Metaobject

/-! ### Observers after several events -/

namespace Observer

/-- An observer after events, oldest first. -/
def after (observer : Observer) (events : List TraceEvent) : Observer :=
  events.foldl (fun reached event ↦ reached.observe event) observer

theorem after_append (observer : Observer) (first second : List TraceEvent) :
    observer.after (first ++ second) = (observer.after first).after second :=
  List.foldl_append

theorem after_silent (events : List TraceEvent) : silent.after events = silent := by
  induction events with
  | nil => rfl
  | cons event rest ih => exact ih

theorem after_recording_none (earlier events : List TraceEvent) :
    (recording none earlier).after events = recording none (events.reverse ++ earlier) := by
  induction events generalizing earlier with
  | nil => rfl
  | cons event rest ih => exact (ih (event :: earlier)).trans (by simp)

/-- Under a limit events are recorded until there are as many as the limit says. -/
theorem after_recording_some (bound : Nat) (earlier events : List TraceEvent) :
    (recording (some bound) earlier).after events =
      recording (some bound) ((events.take (bound - earlier.length)).reverse ++ earlier) := by
  induction events generalizing earlier with
  | nil => simp [after]
  | cons event rest ih =>
    show (observe event (recording (some bound) earlier)).after rest = _
    by_cases hroom : earlier.length < bound
    · have hstep : observe event (recording (some bound) earlier) =
          recording (some bound) (event :: earlier) := by simp [observe, hasRoom, hroom]
      obtain ⟨left, hleft⟩ : ∃ left, bound - earlier.length = left + 1 :=
        ⟨bound - earlier.length - 1, by omega⟩
      have hrest : bound - (event :: earlier).length = left := by
        rw [List.length_cons]
        omega
      rw [hstep, ih, hrest, hleft, List.take_succ_cons, List.reverse_cons, List.append_assoc]
      rfl
    · have hstep : observe event (recording (some bound) earlier) =
          recording (some bound) earlier := by simp [observe, hasRoom, hroom]
      have hfull : bound - earlier.length = 0 := by omega
      rw [hstep, ih, hfull, List.take_zero, List.take_zero]

theorem after_printing_none (count : Nat) (lines : List String) (events : List TraceEvent) :
    (printing none count lines).after events =
      printing none (count + events.length) ((events.map TraceEvent.line).reverse ++ lines) := by
  induction events generalizing count lines with
  | nil => rfl
  | cons event rest ih =>
    refine (ih (count + 1) (event.line :: lines)).trans ?_
    rw [List.length_cons, Nat.add_assoc, Nat.add_comm 1]
    simp

/-- The lines that are printed of events when `left` more are printed up to the limit: a line each,
and a notice after the last of them. -/
def shown (limit left : Nat) (events : List TraceEvent) : List String :=
  (events.take left).map TraceEvent.line ++
    if 1 ≤ left ∧ left ≤ events.length then [notice limit] else []

theorem shown_zero (limit : Nat) (events : List TraceEvent) : shown limit 0 events = [] := by
  simp [shown]

theorem shown_one_cons (limit : Nat) (event : TraceEvent) (rest : List TraceEvent) :
    shown limit 1 (event :: rest) = [event.line, notice limit] := by
  simp [shown]

theorem shown_succ_cons (limit left : Nat) (event : TraceEvent) (rest : List TraceEvent) :
    shown limit (left + 2) (event :: rest) = event.line :: shown limit (left + 1) rest := by
  simp [shown]

theorem after_printing_some (left count : Nat) (lines : List String) (events : List TraceEvent) :
    ∃ total, (printing (some (count + left)) count lines).after events =
      printing (some (count + left)) total
        ((shown (count + left) left events).reverse ++ lines) := by
  induction events generalizing left count lines with
  | nil =>
    have hnone : shown (count + left) left [] = [] := by
      rw [shown, if_neg (by simp; omega)]
      simp
    exact ⟨count, by rw [hnone]; rfl⟩
  | cons event rest ih =>
    show ∃ total, (observe event (printing (some (count + left)) count lines)).after rest = _
    match left with
    | 0 =>
      have hstep : observe event (printing (some (count + 0)) count lines) =
          printing (some (count + 0)) count lines := by simp [observe, isBelow]
      rw [hstep, shown_zero, ← shown_zero (count + 0) rest]
      exact ih 0 count lines
    | 1 =>
      have hstep : observe event (printing (some (count + 1)) count lines) =
          printing (some (count + 1)) (count + 1) (notice (count + 1) :: event.line :: lines) := by
        simp [observe, isBelow]
      obtain ⟨total, hrest⟩ := ih 0 (count + 1) (notice (count + 1) :: event.line :: lines)
      rw [shown_zero] at hrest
      exact ⟨total, by rw [hstep, shown_one_cons]; exact hrest⟩
    | left + 2 =>
      have hstep : observe event (printing (some (count + (left + 2))) count lines) =
          printing (some (count + (left + 2))) (count + 1) (event.line :: lines) := by
        simp [observe, isBelow]
      have hlimit : count + (left + 2) = count + 1 + (left + 1) := by omega
      obtain ⟨total, hrest⟩ := ih (left + 1) (count + 1) (event.line :: lines)
      rw [hstep, shown_succ_cons, hlimit]
      exact ⟨total, by rw [hrest]; simp⟩

end Observer

/-! ### Effects -/

/-- The events that an effect reports. -/
def Effect.events {Answer : Type} : Effect Answer → List TraceEvent
  | .reportMetaclass className metaclass => [.metaclassResolved className metaclass]
  | .reportClass className metaclass => [.classBuilt className metaclass]
  | _ => []

/-- A world with another observer. -/
def World.watchedBy (world : World) (observer : Observer) : World := { world with observer }

/-- An effect is answered alike whatever the observer is, and the observer takes its events. -/
theorem Effect.answer_watchedBy (settings : Settings) {Answer : Type} (effect : Effect Answer)
    (world : World) (observer : Observer) :
    effect.answer settings (world.watchedBy observer) =
      ((effect.answer settings world).1,
        (effect.answer settings world).2.watchedBy (observer.after effect.events)) := by
  cases effect with
  | permitBits bits => simp only [answer]; split <;> rfl
  | newClass definition => simp only [answer, World.createClass, World.watchedBy]; split <;> rfl
  | storeAttribute holder name content =>
    simp only [answer, World.storeAttribute, World.watchedBy]
    split <;> rfl
  | fillCell cell content =>
    simp only [answer, World.fillCell, World.watchedBy]
    split <;> rfl
  | takeItem iterator => simp only [answer, World.watchedBy]; split <;> rfl
  | write text => simp only [answer, World.emit, World.watchedBy]; split <;> rfl
  | flush => simp only [answer, World.emit, World.watchedBy]; split <;> rfl
  | importModule request =>
    simp only [answer, World.importModule, World.watchedBy]
    split
    · rfl
    · split <;> rfl
  | compileSource request =>
    simp only [answer, World.compileSource, World.watchedBy]
    split
    · rfl
    · split <;> rfl
  | enterBody code =>
    simp only [answer, World.enterBody, World.watchedBy]
    split
    · rfl
    · split
      · rfl
      · split <;> rfl
  | _ => rfl

/-- The observer of the world takes the events of an effect. -/
theorem Effect.observer_answer (settings : Settings) {Answer : Type} (effect : Effect Answer)
    (world : World) :
    (effect.answer settings world).2.observer = world.observer.after effect.events :=
  congrArg (·.2.observer) (effect.answer_watchedBy settings world world.observer)

/-! ### Worlds that follow each other -/

/-- Whether two worlds are the same but for their observers, and these have taken the same events
since they were the given ones. -/
def World.Follow (first second : Observer) (left right : World) : Prop :=
  ∃ events, left.observer = first.after events ∧ right = left.watchedBy (second.after events)

/-- Two runs under different observers follow each other, whatever happens in them. -/
theorem Settings.couples_follow (settings : Settings) (first second : Observer) :
    Couples settings settings (World.Follow first second) fun _ ↦ True where
  effect := by
    rintro Answer effect left _ ⟨events, hevents, rfl⟩ -
    rw [effect.answer_watchedBy]
    refine ⟨rfl, events ++ effect.events, ?_, ?_⟩
    · rw [effect.observer_answer, hevents, Observer.after_append]
    · rw [Observer.after_append]
  refuses := by
    rintro left _ ⟨events, -, rfl⟩ -
    exact Iff.rfl
  depth := by
    rintro left _ ⟨events, -, rfl⟩
    rfl
  atDepth := by
    rintro left _ ⟨events, hevents, rfl⟩ depth
    exact ⟨events, hevents, rfl⟩
  observe := by
    rintro left _ ⟨events, hevents, rfl⟩ event
    refine ⟨events ++ [event], ?_, ?_⟩
    · rw [Observer.after_append, ← hevents]
      rfl
    · rw [Observer.after_append]
      rfl

/-! ### Sessions -/

namespace Session

theorem addModules_watchedBy (names : List String) (world : World) (observer : Observer) :
    addModules names (world.watchedBy observer) =
      ((addModules names world).1, (addModules names world).2.watchedBy observer) := by
  induction names generalizing world with
  | nil => rfl
  | cons name rest ih =>
    show ((addModule name world).1 ::
        (addModules rest ((addModule name world).2.watchedBy observer)).1,
      (addModules rest ((addModule name world).2.watchedBy observer)).2) = _
    rw [ih]
    rfl

/-- A session that is started with the given observer. -/
def startWatched (configuration : Configuration) (observer : Observer) : Session :=
  start { configuration with observer }

theorem startWatched_eq (configuration : Configuration) (first second : Observer) :
    startWatched configuration second =
      { startWatched configuration first with
        world := (startWatched configuration first).world.watchedBy second } := by
  have hmodules := addModules_watchedBy (configuration.modules.getD [])
    ((World.start configuration.sink first).allocate (.dict .empty)).2 second
  exact congrArg (fun outcome : List (String × Address) × World ↦
    ({ settings :=
        { limits := configuration.limits
          runsScripts := configuration.runsScripts
          compiles := configuration.compiles
          modules := configuration.modules.map fun _ ↦ outcome.1 }
       world := outcome.2
       frame := (startWatched configuration first).frame } : Session)) hmodules

/-- Two sessions that start alike but for their observers follow each other at every step. -/
theorem outcomes_follow (configuration : Configuration) (first second : Observer) (patience : Nat)
    (statements : List Script.Statement) :
    List.Forall₂ (Ending.Alike (World.Follow first second))
        ((startWatched configuration first).outcomes patience statements)
        ((startWatched configuration second).outcomes patience statements) ∧
      World.Follow first second ((startWatched configuration first).after patience statements).world
        ((startWatched configuration second).after patience statements).world := by
  have hobserver : (startWatched configuration first).world.observer = first :=
    congrArg (·.world.observer) (startWatched_eq configuration first first)
  have hcouples := (startWatched configuration first).settings.couples_follow first second
  rw [startWatched_eq configuration first second]
  exact hcouples.outcomes (startWatched configuration first)
    { startWatched configuration first with
      world := (startWatched configuration first).world.watchedBy second }
    rfl ⟨[], hobserver, rfl⟩ fun _ _ ↦ trivial

/-- The world in which statements end that are run under the given observer. -/
def reached (configuration : Configuration) (observer : Observer) (patience : Nat)
    (statements : List Script.Statement) : World :=
  ((startWatched configuration observer).after patience statements).world

/-- The events of statements, as they are recorded without a limit. -/
def recorded (configuration : Configuration) (patience : Nat)
    (statements : List Script.Statement) : List TraceEvent :=
  (reached configuration (.recording none []) patience statements).observer.events

/-- What an observer has in the end is what it makes of the recorded events. -/
theorem reached_observer (configuration : Configuration) (observer : Observer) (patience : Nat)
    (statements : List Script.Statement) :
    (reached configuration observer patience statements).observer =
      observer.after (recorded configuration patience statements) := by
  obtain ⟨-, events, hrecording, hobserver⟩ :=
    outcomes_follow configuration (.recording none []) observer patience statements
  have hevents : recorded configuration patience statements = events := by
    rw [recorded, reached, hrecording, Observer.after_recording_none]
    simp [Observer.events]
  rw [hevents, reached, hobserver]
  rfl

/-- Observers are transparent, and limits cut a prefix. Whatever the observer is, each statement
ends as without one, and the world after it is the same but for the observer: the same heap, depth,
output and imports. A recording observer with a limit records the first events up to the limit of
those that one without a limit records. A printing observer prints the lines of all these events, or
of the first of them up to its limit; then a notice follows if and only if the limit is not zero and
there are as many events. -/
theorem observers_transparent (configuration : Configuration) (patience : Nat)
    (statements : List Script.Statement) :
    (∀ observer,
      ((startWatched configuration observer).outcomes patience statements).map
          (Prod.map id (·.watchedBy .silent)) =
        (startWatched configuration .silent).outcomes patience statements ∧
      (reached configuration observer patience statements).watchedBy .silent =
        reached configuration .silent patience statements) ∧
    (∀ limit,
      (reached configuration (.recording (some limit) []) patience statements).observer.events =
        (recorded configuration patience statements).take limit) ∧
    (reached configuration (.printing none 0 []) patience statements).observer.printed =
      String.join ((recorded configuration patience statements).map (·.line ++ "\n")) ∧
    ∀ limit,
      (reached configuration (.printing (some limit) 0 []) patience statements).observer.printed =
        String.join
            (((recorded configuration patience statements).take limit).map (·.line ++ "\n")) ++
          if 1 ≤ limit ∧ limit ≤ (recorded configuration patience statements).length then
            Observer.notice limit ++ "\n" else "" := by
  refine ⟨fun observer ↦ ?_, fun limit ↦ ?_, ?_, fun limit ↦ ?_⟩
  · obtain ⟨houtcomes, hreached⟩ :=
      outcomes_follow configuration observer .silent patience statements
    have hsilenced {left right : World} (hfollow : World.Follow observer .silent left right) :
        left.watchedBy .silent = right := by
      obtain ⟨events, -, rfl⟩ := hfollow
      rw [Observer.after_silent]
    refine ⟨?_, hsilenced hreached⟩
    rw [← List.forall₂_eq_eq_eq, List.forall₂_map_left_iff]
    exact houtcomes.imp fun _ _ halike ↦ Prod.ext halike.1 (hsilenced halike.2)
  · rw [reached_observer, Observer.after_recording_some]
    simp [Observer.events]
  · rw [reached_observer, Observer.after_printing_none]
    simp [Observer.printed, List.map_map, Function.comp_def]
  · rw [reached_observer]
    obtain ⟨total, hafter⟩ := Observer.after_printing_some limit 0 []
      (recorded configuration patience statements)
    rw [Nat.zero_add] at hafter
    simp only [hafter, Observer.printed, Observer.shown, List.append_nil, List.reverse_reverse]
    rw [List.map_append, List.map_map, String.join_append]
    congr 1
    split <;> simp

/-! ### A call that is observed -/

namespace Watched

open Script

/-- A call of `abs`. -/
def statements : List Statement :=
  [.evaluate (.callBuiltin "abs" [.literal (.int (-2))] .absent)]

/-- The two events of the call. -/
def events : List TraceEvent := [.builtinCall "abs" 1 1, .builtinReturn "abs" true 1]

/-- What is recorded of the call under a limit. -/
def recorded (limit : Nat) : List TraceEvent :=
  (reached .scripted (.recording (some limit) []) 2 statements).observer.events

/-- What is printed of the call under a limit. -/
def printed (limit : Nat) : String :=
  (reached .scripted (.printing (some limit) 0 []) 2 statements).observer.printed

end Watched

/-- The limits zero, one and two: a recording observer has no event, the first one and both. A
printing one prints nothing at all, or as many lines, and then the notice. -/
theorem observers_transparent_limits :
    recorded .scripted 2 Watched.statements = Watched.events ∧
      [0, 1, 2].map Watched.recorded = [[], [.builtinCall "abs" 1 1], Watched.events] ∧
      [0, 1, 2].map Watched.printed =
        ["",
          "  >>> abs                  argc=1  depth=1\n" ++
            "--- trace limit reached (1 lines) ---\n",
          "  >>> abs                  argc=1  depth=1\n" ++
            "  <<< abs                  ok      depth=1\n" ++
              "--- trace limit reached (2 lines) ---\n"] := by
  obtain ⟨-, hrecords, -, hprints⟩ := observers_transparent .scripted 2 Watched.statements
  have hevents : recorded .scripted 2 Watched.statements = Watched.events := by decide +kernel
  rw [hevents] at hrecords hprints
  refine ⟨hevents, (List.map_congr_left fun limit _ ↦ hrecords limit).trans rfl,
    (List.map_congr_left fun limit _ ↦ hprints limit).trans ?_⟩
  decide +kernel

end Session

end Metaobject
