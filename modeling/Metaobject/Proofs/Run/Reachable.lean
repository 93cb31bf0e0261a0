import Metaobject.Proofs.Run.Depth
import Metaobject.Proofs.Run.Soundness
import Metaobject.Proofs.Safety.Call

/-!
# Reachable worlds

The worlds of all runs of all sessions: those in which a session rests between two steps, and those
before and after every moment inside a step (`Session.Rests`, `Session.Passes`, `Session.Reaches`).
Steps may be run with any patience, so that runs are covered that are never carried to their end.

Requests are answered soundly whatever they are (`Request.answer_sound`, `Request.history_sound`),
and a session starts in a well-formed heap (`Session.sound_start`). So the heap of every reachable
world is well-formed (`Session.Reaches.wellFormed`), and every request is admissible when it is made
(`Session.Passes.sound`). Between steps no call is open (`Session.Rests.depth_eq`).
-/

set_option autoImplicit false
set_option relaxedAutoImplicit false

namespace Metaobject

/-! ### Answers to requests -/

section

variable (settings : Settings)
  {respond : {Answer : Type} → Request Answer → World → Ending Answer × World}
  {inside : {Answer : Type} → Request Answer → World → List Moment}

theorem World.deeper_sound {Result : Type} {part : World → Ending Result × World}
    {post : Heap → Result → Prop} {world : World} (hformed : world.heap.WellFormed)
    (hpart : ∀ inner : World, inner.heap = world.heap →
      Ending.Sound world.heap post (part inner)) :
    Ending.Sound world.heap post (world.deeper settings part) := by
  unfold deeper
  split
  · exact Ending.sound_raised hformed.later_self
  · exact hpart { world with depth := world.depth + 1 } rfl

theorem Call.run_sound (hrespond : SoundResponder settings respond) {callable : Value}
    {arguments : Arguments} {world : World} (hformed : world.heap.WellFormed)
    (hsettings : settings.Held world.heap) (hcallable : world.heap.Holds callable)
    (harguments : arguments.Held world.heap) :
    Ending.Sound world.heap Heap.Holds (Call.run settings respond callable arguments world) := by
  have hprogram : ∀ inner : World, inner.heap = world.heap → Ending.Sound world.heap Heap.Holds
      ((Call.dispatch callable arguments).run settings respond inner) := by
    rintro inner hheap
    have hsafe := Call.safe_dispatch hformed hcallable harguments
    rw [← hheap] at hformed hsettings hsafe ⊢
    exact hsafe.run hrespond hformed hsettings
  cases callable with
  | builtin builtin =>
    cases builtin with
    | function builtin =>
      exact hprogram (world.observe (.builtinCall builtin.name arguments.count world.depth)) rfl
    | type | exception => exact hprogram world rfl
  | _ => exact hprogram world rfl

/-- Requests are answered with later heaps and with what they yield. -/
theorem Request.answer_sound (patience : Nat) :
    SoundResponder settings (Request.answer settings patience) := by
  induction patience with
  | zero =>
    intro Answer request world hformed _ _
    exact Ending.sound_exhausted hformed.later_self
  | succ patience ih =>
    intro Answer request world hformed hsettings hadmissible
    cases request with
    | call callable arguments =>
      refine World.deeper_sound settings hformed fun inner hheap ↦ ?_
      rw [← hheap] at hformed hsettings hadmissible ⊢
      exact Call.run_sound settings ih hformed hsettings hadmissible.1 hadmissible.2
    | runCode frame code =>
      refine World.deeper_sound settings hformed fun inner hheap ↦ ?_
      have hsafe := Script.safe_runCode hformed hadmissible.1 hadmissible.2
      rw [← hheap] at hformed hsettings hsafe ⊢
      exact hsafe.run ih hformed hsettings
    | drain iterator =>
      refine ((Operation.safe_advance hformed hadmissible).run ih hformed hsettings).andThen
        fun step reached hlater hstep ↦ ?_
      have hreached := hlater.formed.later_self
      cases step with
      | exhausted => exact Ending.sound_value hreached (Heap.holdsAll_nil _)
      | produced item =>
        refine (ih (.drain iterator) reached hlater.formed (hsettings.grow hlater.grows)
          (Heap.Holds.grow hlater.grows hadmissible)).andThen fun items last hlast hitems ↦ ?_
        exact Ending.sound_value hlast.formed.later_self
          (Heap.HoldsAll.cons (hstep.grow hlast.grows) hitems)

/-! ### Histories of requests -/

theorem World.deeperHistory_sound {Result : Type} {part : World → Ending Result × World}
    {history : World → List Moment} {world : World} (hformed : world.heap.WellFormed)
    (hpart : ∀ inner : World, inner.heap = world.heap → world.heap.Later (part inner).2.heap)
    (hhistory : ∀ inner : World, inner.heap = world.heap →
      ∀ moment ∈ history inner, moment.Sound world.heap) :
    ∀ moment ∈ world.deeperHistory settings part history, moment.Sound world.heap := by
  have hself := hformed.later_self
  intro moment hmoment
  unfold deeperHistory at hmoment
  split at hmoment
  · obtain rfl := List.mem_singleton.mp hmoment
    exact ⟨hself, hself, fun _ hasks ↦ nomatch hasks⟩
  · have hreached := hpart { world with depth := world.depth + 1 } rfl
    rcases List.mem_append.mp hmoment with hearlier | hlast
    · rcases List.mem_cons.mp hearlier with rfl | hinner
      · exact ⟨hself, hself, fun _ hasks ↦ nomatch hasks⟩
      · exact hhistory { world with depth := world.depth + 1 } rfl moment hinner
    · obtain rfl := List.mem_singleton.mp hlast
      exact ⟨hreached, hreached.formed.later_self, fun _ hasks ↦ nomatch hasks⟩

theorem Call.history_sound (hrespond : SoundResponder settings respond)
    (hinside : SoundHistories settings inside) {callable : Value} {arguments : Arguments}
    {world : World} (hformed : world.heap.WellFormed) (hsettings : settings.Held world.heap)
    (hcallable : world.heap.Holds callable) (harguments : arguments.Held world.heap) :
    ∀ moment ∈ Call.history settings respond inside callable arguments world,
      moment.Sound world.heap := by
  have hself := hformed.later_self
  have hprogram : ∀ inner : World, inner.heap = world.heap →
      ∀ moment ∈ (Call.dispatch callable arguments).history settings respond inside inner,
        moment.Sound world.heap := by
    rintro inner hheap
    have hsafe := Call.safe_dispatch hformed hcallable harguments
    rw [← hheap] at hformed hsettings hsafe ⊢
    exact hsafe.history hrespond hinside hformed hsettings
  cases callable with
  | builtin builtin =>
    cases builtin with
    | function builtin =>
      have hreached := (Call.run_sound settings hrespond hformed hsettings hcallable harguments).1
      intro moment hmoment
      rcases List.mem_append.mp hmoment with hearlier | hlast
      · rcases List.mem_cons.mp hearlier with rfl | hinner
        · exact ⟨hself, hself, fun _ hasks ↦ nomatch hasks⟩
        · exact hprogram (world.observe _) rfl moment hinner
      · obtain rfl := List.mem_singleton.mp hlast
        exact ⟨hreached, hreached.formed.later_self, fun _ hasks ↦ nomatch hasks⟩
    | type | exception => exact hprogram world rfl
  | _ => exact hprogram world rfl

theorem Request.opening_sound
    {happening : {Answer : Type} → Request Answer → World → List Moment}
    (hhappening : SoundHistories settings happening) :
    SoundHistories settings (Request.opening happening) := by
  intro Answer request world hformed hsettings hadmissible moment hmoment
  rcases List.mem_cons.mp hmoment with rfl | hlater
  · refine ⟨hformed.later_self, hformed.later_self, fun other hasks ↦ ?_⟩
    cases hasks
    exact hadmissible
  · exact hhappening request world hformed hsettings hadmissible moment hlater

/-- What happens for a request that may be made is sound. -/
theorem Request.history_sound (patience : Nat) :
    SoundHistories settings (Request.history settings patience) := by
  induction patience with
  | zero => exact fun _ _ _ _ _ _ hmoment ↦ absurd hmoment List.not_mem_nil
  | succ patience ih =>
    have hrespond : SoundResponder settings (Request.answer settings patience) :=
      Request.answer_sound settings patience
    have hinside : SoundHistories settings (Request.opening (Request.history settings patience)) :=
      Request.opening_sound settings ih
    intro Answer request world hformed hsettings hadmissible
    cases request with
    | call callable arguments =>
      refine World.deeperHistory_sound settings hformed (fun inner hheap ↦ ?_)
        fun inner hheap ↦ ?_ <;>
        rw [← hheap] at hformed hsettings hadmissible ⊢
      · exact (Call.run_sound settings hrespond hformed hsettings hadmissible.1 hadmissible.2).1
      · exact Call.history_sound settings hrespond hinside hformed hsettings hadmissible.1
          hadmissible.2
    | runCode frame code =>
      have hsafe := Script.safe_runCode hformed hadmissible.1 hadmissible.2
      refine World.deeperHistory_sound settings hformed (fun inner hheap ↦ ?_)
        fun inner hheap ↦ ?_ <;>
        rw [← hheap] at hformed hsettings hsafe ⊢
      · exact (hsafe.run hrespond hformed hsettings).1
      · exact hsafe.history hrespond hinside hformed hsettings
    | drain iterator =>
      have hsafe := Operation.safe_advance hformed hadmissible
      obtain ⟨hlater, -⟩ := hsafe.run hrespond hformed hsettings
      intro moment hmoment
      rcases List.mem_append.mp hmoment with hstep | hrest
      · exact hsafe.history hrespond hinside hformed hsettings moment hstep
      · obtain ⟨step, -, hnext⟩ := Ending.mem_onward.mp hrest
        cases step with
        | exhausted => exact absurd hnext List.not_mem_nil
        | produced =>
          exact (ih (.drain iterator) _ hlater.formed (hsettings.grow hlater.grows)
            (Heap.Holds.grow hlater.grows hadmissible) moment hnext).of_later hlater

end

/-! ### Sessions -/

namespace Session

/-- Runs a statement with a given patience. -/
def stepWithin (patience : Nat) (session : Session) (statement : Script.Statement) :
    Ending Value × Session :=
  let (ending, world) := (Script.runStep session.frame statement).run session.settings
    (Request.answer session.settings patience) session.world
  (ending, { session with world })

theorem step_eq_stepWithin (session : Session) (statement : Script.Statement) :
    session.step statement = session.stepWithin patience statement := rfl

/-- What happens when a statement is run. -/
def history (patience : Nat) (session : Session) (statement : Script.Statement) : List Moment :=
  (Script.runStep session.frame statement).history session.settings
    (Request.answer session.settings patience)
    (Request.opening (Request.history session.settings patience)) session.world

/-- The sessions between two steps, whatever the steps before were. -/
inductive Rests (configuration : Configuration) : Session → Prop
  | start : Rests configuration (start configuration)
  | step {session : Session} (hrests : Rests configuration session) (patience : Nat)
      (statement : Script.Statement) :
      Rests configuration (session.stepWithin patience statement).2

/-- The moments of all steps. -/
def Passes (configuration : Configuration) (moment : Moment) : Prop :=
  ∃ session patience statement, Rests configuration session ∧
    moment ∈ session.history patience statement

/-- The worlds of all runs: between the steps and within them. -/
inductive Reaches (configuration : Configuration) : World → Prop
  | rests {session : Session} (hrests : Rests configuration session) :
      Reaches configuration session.world
  | before {moment : Moment} (hpasses : Passes configuration moment) :
      Reaches configuration moment.before
  | after {moment : Moment} (hpasses : Passes configuration moment) :
      Reaches configuration moment.after

/-- A session in a well-formed heap that has its modules and its scopes. -/
structure Sound (session : Session) : Prop where
  formed : session.world.heap.WellFormed
  settings : session.settings.Held session.world.heap
  frame : session.frame.Held session.world.heap

theorem sound_addModule {world : World} (hformed : world.heap.WellFormed) (name : String) :
    world.heap.Later (addModule name world).2.heap ∧
      (addModule name world).2.heap.Holds (.moduleObject (addModule name world).1.2) := by
  have hentries := World.holdsEntries_moduleEntries name world.heap.holdsEntries_empty
  have hdict : world.heap.Later (world.heap.allocate (.dict (World.moduleEntries name .empty))) :=
    ⟨world.heap.growsTo_allocate _, hformed.allocate hentries (by simp)⟩
  have hheld : (world.heap.allocate (.dict (World.moduleEntries name .empty))).Holds
      (.dict world.heap.size) :=
    Heap.holds_dict.mpr (Option.isSome_of_eq_some
      (Heap.dict?_eq_some_iff.mpr (world.heap.get?_allocate_size _)))
  refine ⟨hdict.trans ⟨Heap.growsTo_allocate _ _, hdict.formed.allocate hheld (by simp)⟩, ?_⟩
  exact Heap.holds_moduleObject.mpr (Option.isSome_of_eq_some
    (Heap.module?_eq_some_iff.mpr (Heap.get?_allocate_size _ _)))

theorem sound_addModules {world : World} (hformed : world.heap.WellFormed) (names : List String) :
    world.heap.Later (addModules names world).2.heap ∧
      ∀ pair ∈ (addModules names world).1,
        (addModules names world).2.heap.Holds (.moduleObject pair.2) := by
  induction names generalizing world with
  | nil => exact ⟨hformed.later_self, fun _ hpair ↦ absurd hpair List.not_mem_nil⟩
  | cons name rest ih =>
    obtain ⟨hlater, hheld⟩ := sound_addModule hformed name
    obtain ⟨hrest, hothers⟩ := ih hlater.formed
    exact ⟨hlater.trans hrest, List.forall_mem_cons.mpr ⟨hheld.grow hrest.grows, hothers⟩⟩

/-- A session starts soundly. -/
theorem sound_start (configuration : Configuration) : (start configuration).Sound := by
  have hmain : (Heap.empty.allocate (.dict .empty)).WellFormed :=
    Heap.wellFormed_empty.allocate (Heap.empty.holdsEntries_empty) (by simp)
  have hdict : (Heap.empty.allocate (.dict .empty)).Holds (.dict Heap.empty.size) :=
    Heap.holds_dict.mpr (Option.isSome_of_eq_some
      (Heap.dict?_eq_some_iff.mpr (Heap.empty.get?_allocate_size _)))
  let world := ((World.start configuration.sink configuration.observer).allocate (.dict .empty)).2
  obtain ⟨hlater, hmodules⟩ := @sound_addModules world hmain (configuration.modules.getD [])
  have hheld := hdict.grow hlater.grows
  refine
    { formed := hlater.formed
      settings := fun modules hsome pair hpair ↦ ?_
      frame := ⟨hheld, hheld, fun _ hcell ↦ absurd hcell List.not_mem_nil⟩ }
  obtain ⟨_, -, rfl⟩ := Option.map_eq_some_iff.mp hsome
  exact hmodules pair hpair

theorem Sound.stepWithin {session : Session} (hsound : session.Sound) (patience : Nat)
    (statement : Script.Statement) : (session.stepWithin patience statement).2.Sound := by
  obtain ⟨hlater, -⟩ := (Script.safe_runStep hsound.formed hsound.frame statement).run
    (Request.answer_sound session.settings patience) hsound.formed hsound.settings
  exact ⟨hlater.formed, hsound.settings.grow hlater.grows, hsound.frame.grow hlater.grows⟩

variable {configuration : Configuration}

theorem Rests.sound {session : Session} (hrests : Rests configuration session) : session.Sound := by
  induction hrests with
  | start => exact sound_start configuration
  | step _ patience statement ih => exact ih.stepWithin patience statement

/-- The settings are those with which the session starts. -/
theorem Rests.settings_eq {session : Session} (hrests : Rests configuration session) :
    session.settings = (Session.start configuration).settings := by
  induction hrests with
  | start => rfl
  | step _ _ _ ih => exact ih

/-- Every moment of every run is sound from a well-formed heap on that has the modules. -/
theorem Passes.sound {moment : Moment} (hpasses : Passes configuration moment) :
    ∃ heap, (Session.start configuration).settings.Held heap ∧ moment.Sound heap := by
  obtain ⟨session, patience, statement, hrests, hmoment⟩ := hpasses
  have hsound := hrests.sound
  refine ⟨session.world.heap, hrests.settings_eq ▸ hsound.settings, ?_⟩
  exact (Script.safe_runStep hsound.formed hsound.frame statement).history
    (Request.answer_sound session.settings patience)
    (Request.opening_sound _ (Request.history_sound session.settings patience)) hsound.formed
    hsound.settings moment hmoment

/-- The heap of every reachable world is well-formed. -/
theorem Reaches.wellFormed {world : World} (hreaches : Reaches configuration world) :
    world.heap.WellFormed := by
  cases hreaches with
  | rests hrests => exact hrests.sound.formed
  | before hpasses =>
    obtain ⟨heap, -, hsound⟩ := hpasses.sound
    exact hsound.before.formed
  | after hpasses =>
    obtain ⟨heap, -, hsound⟩ := hpasses.sound
    exact hsound.after.formed

/-- The modules of a configuration are there in every reachable world. -/
theorem Reaches.settings_held {world : World}
    (hreaches : Reaches configuration world) :
    (Session.start configuration).settings.Held world.heap := by
  cases hreaches with
  | rests hrests => exact hrests.settings_eq ▸ hrests.sound.settings
  | before hpasses =>
    obtain ⟨heap, hheld, hsound⟩ := hpasses.sound
    exact hheld.grow hsound.before.grows
  | after hpasses =>
    obtain ⟨heap, hheld, hsound⟩ := hpasses.sound
    exact hheld.grow (hsound.before.trans hsound.after).grows

theorem addModules_depth (names : List String) (world : World) :
    (addModules names world).2.depth = world.depth := by
  induction names generalizing world with
  | nil => rfl
  | cons name rest ih => exact ih (addModule name world).2

/-- Between two steps no call is open. -/
theorem Rests.depth_eq {session : Session} (hrests : Rests configuration session) :
    session.world.depth = 0 := by
  induction hrests with
  | start => exact addModules_depth (configuration.modules.getD []) _
  | @step session _ patience statement ih =>
    refine Eq.trans ?_ ih
    exact Program.run_depth session.settings
      (fun request ↦ request.answer_depth session.settings patience) _ session.world

/-- A session after statements, each run with the given patience. -/
def after (patience : Nat) (session : Session) : List Script.Statement → Session
  | [] => session
  | statement :: rest => after patience (session.stepWithin patience statement).2 rest

/-- What happens when statements are run, each with the given patience. -/
def historyOf (patience : Nat) (session : Session) : List Script.Statement → List Moment
  | [] => []
  | statement :: rest =>
    session.history patience statement ++
      historyOf patience (session.stepWithin patience statement).2 rest

theorem Rests.after {session : Session} (hrests : Rests configuration session) (patience : Nat)
    (statements : List Script.Statement) :
    Rests configuration (session.after patience statements) := by
  induction statements generalizing session with
  | nil => exact hrests
  | cons statement rest ih => exact ih (hrests.step patience statement)

end Session

/-! ### Plain sessions -/

/-- Scripts are run under the standard limits, without compiler and importer. What is written is
discarded, and nothing is observed. -/
def Configuration.scripted : Configuration :=
  ⟨Limits.standard, true, false, none, .discarding, .silent⟩

namespace Script

/-- The type `type`. -/
def type : Expression := .literal (.nativeType .type)

/-- The call of a metaclass that creates a class. -/
def creation (metaclass : Expression) (name : String) (bases : List Expression)
    (attributes : List (String × Expression)) : Expression :=
  .call metaclass [.literal (.text name), .tuple bases, .dict attributes] .absent

/-- A method with its name. -/
def method (name : String) (parameters : List String) (body : List Statement) :
    String × Expression :=
  (name, .function name (.mk "" parameters false (.script body)) [] [] none)

end Script

end Metaobject
