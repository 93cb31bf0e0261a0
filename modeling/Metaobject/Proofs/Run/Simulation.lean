import Metaobject.Proofs.Run.Reachable

/-!
# Two runs side by side

Two runs of the same program, under settings and from worlds that may differ. The worlds are coupled
by a relation, and two runs end alike when their endings are the same and the worlds at the end are
coupled again (`Ending.Alike`). What has to be known of the settings and of the relation is known
effect by effect and level by level (`Couples`); it may be known for some moments only, and then the
two runs stay together as long as the first one meets no other moment.

From this the runs of programs end alike by induction on the program (`Couples.program`), the
answers to requests by induction on the patience (`Couples.request`), and the steps of sessions one
after the other (`Couples.outcomes`).
-/

set_option autoImplicit false
set_option relaxedAutoImplicit false

namespace Metaobject

/-! ### Endings -/

/-- Whether two runs have the same ending and end in coupled worlds. -/
def Ending.Alike (coupled : World → World → Prop) {Result : Type}
    (first second : Ending Result × World) : Prop :=
  first.1 = second.1 ∧ coupled first.2 second.2

namespace Ending.Alike

variable {coupled : World → World → Prop} {First Second : Type}
  {first second : Ending First × World}

/-- Runs that go on after endings that are alike end alike if what goes on does. -/
theorem andThen {next other : First → World → Ending Second × World}
    (halike : Ending.Alike coupled first second)
    (hnext : ∀ result, (∀ later, Ending.onward first later = later result first.2) →
      Ending.Alike coupled (next result first.2) (other result second.2)) :
    Ending.Alike coupled (Ending.andThen first next) (Ending.andThen second other) := by
  obtain ⟨ending, left⟩ := first
  obtain ⟨sameEnding, right⟩ := second
  obtain ⟨rfl, hcoupled⟩ := halike
  cases ending with
  | value result => exact hnext result fun _ ↦ rfl
  | raised | fault | exhausted => exact ⟨rfl, hcoupled⟩

/-- The same after a handler. -/
theorem handled {handler : Handler}
    {next other : Except Exception First → World → Ending Second × World}
    (halike : Ending.Alike coupled first second)
    (hnext : ∀ result, (∀ later, Ending.handledOnward handler first later = later result first.2) →
      Ending.Alike coupled (next result first.2) (other result second.2)) :
    Ending.Alike coupled (Ending.handled handler first next)
      (Ending.handled handler second other) := by
  obtain ⟨ending, left⟩ := first
  obtain ⟨sameEnding, right⟩ := second
  obtain ⟨rfl, hcoupled⟩ := halike
  cases ending with
  | value result => exact hnext (.ok result) fun _ ↦ rfl
  | raised exception =>
    by_cases htaken : handler.takes exception = true
    · simp only [Ending.handled, if_pos htaken]
      exact hnext (.error exception) fun _ ↦ if_pos htaken
    · simp only [Ending.handled, if_neg htaken]
      exact ⟨rfl, hcoupled⟩
  | fault | exhausted => exact ⟨rfl, hcoupled⟩

end Ending.Alike

/-! ### Coupled settings -/

/-- Settings under which two runs stay together: effects are answered alike in coupled worlds, the
depth is the same and so is the refusal at its limit, and entering, leaving and reporting keep
worlds coupled. Effects and refusals need to agree only at moments of the first run that are
tolerated. -/
structure Couples (first second : Settings) (coupled : World → World → Prop)
    (tolerated : Moment → Prop) : Prop where
  effect {Answer : Type} (effect : Effect Answer) {left right : World}
    (hcoupled : coupled left right)
    (htolerated : tolerated ⟨.performs effect, left, (effect.answer first left).2⟩) :
    Ending.Alike coupled (effect.answer first left) (effect.answer second right)
  refuses {left right : World} (hcoupled : coupled left right)
    (htolerated : first.limits.maxDepth ≤ left.depth → tolerated ⟨.refuses, left, left⟩) :
    first.limits.maxDepth ≤ left.depth ↔ second.limits.maxDepth ≤ right.depth
  depth {left right : World} (hcoupled : coupled left right) : left.depth = right.depth
  atDepth {left right : World} (hcoupled : coupled left right) (depth : Nat) :
    coupled { left with depth } { right with depth }
  observe {left right : World} (hcoupled : coupled left right) (event : TraceEvent) :
    coupled (left.observe event) (right.observe event)

namespace Couples

section

variable {first second : Settings} {coupled : World → World → Prop} {tolerated : Moment → Prop}
  (hcouples : Couples first second coupled tolerated)
  {respond other : {Answer : Type} → Request Answer → World → Ending Answer × World}
  {inside : {Answer : Type} → Request Answer → World → List Moment}
  {left right : World}

include hcouples

/-- A change of the depth that depends on the depth alone keeps worlds coupled. -/
theorem changeDepth (hcoupled : coupled left right) (change : Nat → Nat) :
    coupled { left with depth := change left.depth }
      { right with depth := change right.depth } := by
  rw [hcouples.depth hcoupled]
  exact hcouples.atDepth hcoupled _

/-- Two runs of a program end alike if the answers to requests do, as long as every moment of the
first run is tolerated. -/
theorem program
    (hrespond : ∀ {Answer : Type} (request : Request Answer) {left right : World},
      coupled left right → (∀ moment ∈ inside request left, tolerated moment) →
        Ending.Alike coupled (respond request left) (other request right))
    {Result : Type} (program : Program Result) (hcoupled : coupled left right)
    (htolerated : ∀ moment ∈ program.history first respond inside left, tolerated moment) :
    Ending.Alike coupled (program.run first respond left) (program.run second other right) := by
  induction program generalizing left right with
  | done | raise | fault => exact ⟨rfl, hcoupled⟩
  | perform effect next ih =>
    obtain ⟨hhere, hlater⟩ := List.forall_mem_cons.mp htolerated
    have halike := hcouples.effect effect hcoupled hhere
    refine halike.andThen fun answer honward ↦ ih answer halike.2 ?_
    rwa [honward] at hlater
  | ask request next ih =>
    obtain ⟨hinside, hlater⟩ := List.forall_mem_append.mp htolerated
    have halike := hrespond request hcoupled hinside
    refine halike.andThen fun answer honward ↦ ih answer halike.2 ?_
    rwa [honward] at hlater
  | attempt handler body next ihbody ihnext =>
    obtain ⟨hbody, hlater⟩ := List.forall_mem_append.mp htolerated
    have halike := ihbody hcoupled hbody
    refine halike.handled fun result honward ↦ ihnext result halike.2 ?_
    rwa [honward] at hlater

/-- One level deeper two runs end alike, or both are refused. -/
theorem deeper {Result : Type} {part otherPart : World → Ending Result × World}
    {history : World → List Moment}
    (hpart : ∀ {left right : World}, coupled left right →
      (∀ moment ∈ history left, tolerated moment) →
        Ending.Alike coupled (part left) (otherPart right))
    (hcoupled : coupled left right)
    (htolerated : ∀ moment ∈ left.deeperHistory first part history, tolerated moment) :
    Ending.Alike coupled (left.deeper first part) (right.deeper second otherPart) := by
  have hrefuses := hcouples.refuses hcoupled fun hlimit ↦ htolerated _ (by
    rw [World.deeperHistory, if_pos hlimit]
    exact List.mem_singleton_self _)
  by_cases hlimit : first.limits.maxDepth ≤ left.depth
  · rw [World.deeper, World.deeper, if_pos hlimit, if_pos (hrefuses.mp hlimit)]
    exact ⟨rfl, hcoupled⟩
  · rw [World.deeperHistory, if_neg hlimit] at htolerated
    rw [World.deeper, World.deeper, if_neg hlimit, if_neg (mt hrefuses.mpr hlimit)]
    have hwithin := (List.forall_mem_append.mp htolerated).1
    obtain ⟨hending, hreached⟩ := hpart (hcouples.changeDepth hcoupled (· + 1))
      (List.forall_mem_cons.mp hwithin).2
    exact ⟨hending, hcouples.changeDepth hreached (· - 1)⟩

/-- Two calls of a builtin function end alike if what runs between the reports does. -/
theorem reporting {Result : Type} {part otherPart : World → Ending Result × World}
    {history : World → List Moment}
    (hpart : ∀ {left right : World}, coupled left right →
      (∀ moment ∈ history left, tolerated moment) →
        Ending.Alike coupled (part left) (otherPart right))
    (builtin : BuiltinFunction) (count : Nat) (hcoupled : coupled left right)
    (htolerated : ∀ moment ∈ left.reportingHistory builtin count part history, tolerated moment) :
    Ending.Alike coupled (left.reporting builtin count part)
      (right.reporting builtin count otherPart) := by
  have hwithin := (List.forall_mem_append.mp htolerated).1
  obtain ⟨hending, hreached⟩ := hpart (hcouples.observe hcoupled _)
    (List.forall_mem_cons.mp hwithin).2
  rw [hcouples.depth hcoupled] at hending hreached
  simp only [World.reporting, hcouples.depth hcoupled, hending]
  exact ⟨rfl, hcouples.observe hreached _⟩

/-- Two calls end alike if their programs do. -/
theorem call
    (hrespond : ∀ {Answer : Type} (request : Request Answer) {left right : World},
      coupled left right → (∀ moment ∈ inside request left, tolerated moment) →
        Ending.Alike coupled (respond request left) (other request right))
    (callable : Value) (arguments : Arguments) (hcoupled : coupled left right)
    (htolerated : ∀ moment ∈ Call.history first respond inside callable arguments left,
      tolerated moment) :
    Ending.Alike coupled (Call.run first respond callable arguments left)
      (Call.run second other callable arguments right) := by
  have hprogram {left right : World} (hcoupled : coupled left right) :=
    hcouples.program hrespond (Call.dispatch callable arguments) hcoupled
  cases callable with
  | builtin builtin =>
    cases builtin with
    | function builtin =>
      exact hcouples.reporting hprogram builtin arguments.count hcoupled htolerated
    | type | exception => exact hprogram hcoupled htolerated
  | _ => exact hprogram hcoupled htolerated

/-- The answers to a request are alike. -/
theorem request (patience : Nat) {Answer : Type} (request : Request Answer)
    (hcoupled : coupled left right)
    (htolerated : ∀ moment ∈ request.history first patience left, tolerated moment) :
    Ending.Alike coupled (request.answer first patience left)
      (request.answer second patience right) := by
  induction patience generalizing Answer request left right with
  | zero => exact ⟨rfl, hcoupled⟩
  | succ patience ih =>
    have hrespond : ∀ {Answer : Type} (request : Request Answer) {left right : World},
        coupled left right →
          (∀ moment ∈ request.opening (Request.history first patience) left, tolerated moment) →
            Ending.Alike coupled (request.answer first patience left)
              (request.answer second patience right) :=
      fun request _ _ hcoupled hopening ↦
        ih request hcoupled (List.forall_mem_cons.mp hopening).2
    cases request with
    | call callable arguments =>
      exact hcouples.deeper (hcouples.call hrespond callable arguments) hcoupled htolerated
    | runCode frame code =>
      exact hcouples.deeper (hcouples.program hrespond (Script.runCode frame code)) hcoupled
        htolerated
    | drain iterator =>
      obtain ⟨hstep, hlater⟩ := List.forall_mem_append.mp htolerated
      have halike := hcouples.program hrespond (Operation.advance iterator) hcoupled hstep
      refine halike.andThen fun step honward ↦ ?_
      rw [honward] at hlater
      cases step with
      | exhausted => exact ⟨rfl, halike.2⟩
      | produced item =>
        have hrest := ih (.drain iterator) halike.2 hlater
        exact hrest.andThen fun items _ ↦ ⟨rfl, hrest.2⟩

end

end Couples

/-! ### Sessions -/

namespace Session

/-- How statements end that are run one after the other, each with the world after it. -/
def outcomes (patience : Nat) (session : Session) :
    List Script.Statement → List (Ending Value × World)
  | [] => []
  | statement :: rest =>
    let (ending, session) := session.stepWithin patience statement
    (ending, session.world) :: outcomes patience session rest

end Session

/-- Two sessions that start in coupled worlds end alike at every step. -/
theorem Couples.outcomes (first second : Session) {coupled : World → World → Prop}
    {tolerated : Moment → Prop}
    (hcouples : Couples first.settings second.settings coupled tolerated)
    (hframe : first.frame = second.frame) (hcoupled : coupled first.world second.world)
    {patience : Nat} {statements : List Script.Statement}
    (htolerated : ∀ moment ∈ first.historyOf patience statements, tolerated moment) :
    List.Forall₂ (Ending.Alike coupled) (first.outcomes patience statements)
        (second.outcomes patience statements) ∧
      coupled (first.after patience statements).world (second.after patience statements).world := by
  induction statements generalizing first second with
  | nil => exact ⟨.nil, hcoupled⟩
  | cons statement rest ih =>
    obtain ⟨hstep, hrest⟩ := List.forall_mem_append.mp htolerated
    have halike : Ending.Alike coupled
        ((Script.runStep first.frame statement).run first.settings
          (Request.answer first.settings patience) first.world)
        ((Script.runStep second.frame statement).run second.settings
          (Request.answer second.settings patience) second.world) := by
      rw [← hframe]
      exact hcouples.program (fun request _ _ hcoupled hopening ↦
        hcouples.request patience request hcoupled (List.forall_mem_cons.mp hopening).2)
        _ hcoupled hstep
    obtain ⟨houtcomes, hafter⟩ := ih (first.stepWithin patience statement).2
      (second.stepWithin patience statement).2 hcouples hframe halike.2 hrest
    exact ⟨.cons halike houtcomes, hafter⟩

end Metaobject
