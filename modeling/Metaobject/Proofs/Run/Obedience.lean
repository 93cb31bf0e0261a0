import Metaobject.Machine
import Metaobject.Proofs.Obedience.Marks

/-!
# What programs do

A policy says what programs may do whatever they are answered: with which internal errors they may
end, which of their parts they may guard against exceptions, whether they may report the
construction of a class or run a script, what they may drain, in which scopes they may bind
variables, whether they may edit dicts or write text, and which marks the code may have that they
create (`Policy`). A program obeys a policy when everything on every path through it is permitted
(`Program.Obeys`). The code that a program runs is what it is answered, so its marks are permitted
on these paths.

The rules of this module are those by which obedience is proved, one for each way in which programs
are put together. Unlike safety, obedience does not depend on the heap.
-/

set_option autoImplicit false
set_option relaxedAutoImplicit false

namespace Metaobject

/-! ### Policies -/

/-- What programs may do. -/
structure Policy : Type 1 where
  /-- Whether the construction of a class may be reported. -/
  reports : Prop
  /-- The values that may be drained as iterators. -/
  drains : Value → Prop
  /-- Whether the running of a script may begin. -/
  runs : Prop
  /-- The scopes in which variables may be bound. -/
  binds : Address → Prop
  /-- Whether entries of dicts may be set and removed, other than by binding and by attributes. -/
  edits : Prop
  /-- Whether text may be written and flushed. -/
  writes : Prop
  /-- The internal errors with which a program may end. -/
  faults : String → Prop
  /-- The marks that code may have. -/
  marks : Script.Mark → Prop
  /-- The parts of programs that may be guarded, and by which handlers. -/
  guards : {Answer : Type} → Handler → Program Answer → Prop
  /-- What a permitted mark stands for is permitted. -/
  faults_of_mark : ∀ message, marks (.fault message) → faults message
  guards_of_mark : ∀ handled body, marks (.protects handled body) →
    ∀ frame, guards (.within handled) (Script.runBlock frame body)

namespace Policy

/-- Whether every value may be drained that is no native iterator. -/
def DrainsForeign (policy : Policy) : Prop :=
  ∀ iterator, (∀ address, iterator ≠ .iterator address) → policy.drains iterator

/-- Whether statements have permitted marks only. -/
def Permits (policy : Policy) (marks : List Script.Mark) : Prop := ∀ mark ∈ marks, policy.marks mark

theorem permits_append {policy : Policy} {first second : List Script.Mark} :
    policy.Permits (first ++ second) ↔ policy.Permits first ∧ policy.Permits second :=
  List.forall_mem_append

theorem permits_cons {policy : Policy} {mark : Script.Mark} {rest : List Script.Mark} :
    policy.Permits (mark :: rest) ↔ policy.marks mark ∧ policy.Permits rest :=
  List.forall_mem_cons

theorem permits_nil (policy : Policy) : policy.Permits [] :=
  fun _ hmark ↦ absurd hmark List.not_mem_nil

end Policy

/-- Whether the scopes of a frame are such that variables may be bound in them. -/
def Policy.BindsIn (policy : Policy) (frame : Frame) : Prop :=
  policy.binds frame.locals ∧ policy.binds frame.globals

/-- Whether a policy permits an effect. -/
def Effect.Permitted (policy : Policy) : {Answer : Type} → Effect Answer → Prop
  | _, .reportMetaclass _ _ | _, .reportClass _ _ => policy.reports
  | _, .bindName scope _ _ => policy.binds scope
  | _, .insertEntry _ _ _ | _, .eraseEntry _ _ => policy.edits
  | _, .write _ | _, .flush => policy.writes
  | _, .newCode record => policy.Permits record.body.marks
  | _, .enterBody _ => policy.runs
  | _, _ => True

/-- Whether a policy permits a request. -/
def Request.Permitted (policy : Policy) : {Answer : Type} → Request Answer → Prop
  | _, .drain iterator => policy.drains iterator
  | _, .call _ _ | _, .runCode _ _ => True

/-- Whether an answer to an effect is one that a run under a policy can give. -/
def Effect.Answers (policy : Policy) : {Answer : Type} → Effect Answer → Answer → Prop
  | _, .enterBody _, statements => policy.Permits (Script.Statement.marksOfAll statements)
  | _, _, _ => True

/-- A policy that permits all marks permits all answers. -/
theorem Effect.answers_of_marks {policy : Policy} (hmarks : ∀ mark, policy.marks mark)
    {Answer : Type} (effect : Effect Answer) (answer : Answer) : effect.Answers policy answer := by
  cases effect with
  | enterBody => exact fun mark _ ↦ hmarks mark
  | _ => trivial

/-! ### Obedience -/

/-- Whether a program does only what a policy permits. -/
def Program.Obeys (policy : Policy) : {Result : Type} → Program Result → Prop
  | _, .done _ | _, .raise _ => True
  | _, .fault message => policy.faults message
  | _, .perform effect next =>
    effect.Permitted policy ∧
      ∀ answer, effect.Answers policy answer → (next answer).Obeys policy
  | _, .ask request next => request.Permitted policy ∧ ∀ answer, (next answer).Obeys policy
  | _, .attempt handler body next =>
    policy.guards handler body ∧ body.Obeys policy ∧ ∀ result, (next result).Obeys policy

/-- Whether an outcome is no internal error. -/
def Regular {Result : Type} (outcome : Except Failure Result) : Prop :=
  ∀ message, outcome ≠ .error (.internal message)

theorem Regular.map {First Second : Type} {outcome : Except Failure First}
    (hregular : Regular outcome) (form : First → Second) : Regular (outcome.map form) := by
  intro message hmessage
  cases outcome with
  | ok => cases hmessage
  | error failure => exact hregular message (congrArg _ (Except.error.inj hmessage))

namespace Program.Obeys

variable {policy : Policy} {Result First Second : Type}

/-! ### Rules -/

theorem pure (result : Result) : (pure result : Program Result).Obeys policy := trivial

theorem bind {program : Program First} {next : First → Program Second}
    (hprogram : program.Obeys policy) (hnext : ∀ answer, (next answer).Obeys policy) :
    (program >>= next).Obeys policy := by
  show (program.bind next).Obeys policy
  induction program with
  | done result => exact hnext result
  | raise => trivial
  | fault => exact hprogram
  | perform effect continuation ih =>
    obtain ⟨hpermitted, hcontinuation⟩ := hprogram
    exact ⟨hpermitted, fun answer hanswer ↦ ih answer (hcontinuation answer hanswer) hnext⟩
  | ask request continuation ih =>
    obtain ⟨hpermitted, hcontinuation⟩ := hprogram
    exact ⟨hpermitted, fun answer ↦ ih answer (hcontinuation answer) hnext⟩
  | attempt handler body continuation _ ih =>
    obtain ⟨hguards, hbody, hcontinuation⟩ := hprogram
    exact ⟨hguards, hbody, fun result ↦ ih result (hcontinuation result) hnext⟩

theorem heap_bind {next : Heap → Program Result} (hnext : ∀ heap, (next heap).Obeys policy) :
    (Program.heap >>= next).Obeys policy :=
  ⟨trivial, fun heap _ ↦ hnext heap⟩

theorem effect {effect : Effect Result} (hpermitted : effect.Permitted policy) :
    (Program.effect effect).Obeys policy :=
  ⟨hpermitted, fun _ _ ↦ trivial⟩

theorem effect_bind {effect : Effect First} {next : First → Program Result}
    (hpermitted : effect.Permitted policy)
    (hnext : ∀ answer, effect.Answers policy answer → (next answer).Obeys policy) :
    (Program.effect effect >>= next).Obeys policy :=
  ⟨hpermitted, hnext⟩

theorem request {request : Request Result} (hpermitted : request.Permitted policy) :
    (Program.request request).Obeys policy :=
  ⟨hpermitted, fun _ ↦ trivial⟩

theorem call (callable : Value) (arguments : Arguments) :
    (Program.call callable arguments).Obeys policy :=
  @request policy Value (.call callable arguments) trivial

theorem new {effect : Effect Address} {form : Address → Value}
    (hpermitted : effect.Permitted policy) : (Program.new effect form).Obeys policy :=
  ⟨hpermitted, fun _ _ ↦ trivial⟩

theorem ofExcept (outcome : Except Exception Result) : (Program.ofExcept outcome).Obeys policy := by
  cases outcome <;> trivial

theorem ofExcept_bind {outcome : Except Exception First} {next : First → Program Result}
    (hnext : ∀ result, outcome = .ok result → (next result).Obeys policy) :
    (Program.ofExcept outcome >>= next).Obeys policy := by
  cases outcome with
  | ok result => exact hnext result rfl
  | error => trivial

theorem ofFailure_bind {outcome : Except Failure First} {next : First → Program Result}
    (hregular : Regular outcome)
    (hnext : ∀ result, outcome = .ok result → (next result).Obeys policy) :
    (Program.ofFailure outcome >>= next).Obeys policy := by
  cases houtcome : outcome with
  | ok result => exact hnext result houtcome
  | error failure =>
    cases failure with
    | raised => trivial
    | internal message => exact absurd houtcome (hregular message)

theorem ofFailure {outcome : Except Failure Result} (hregular : Regular outcome) :
    (Program.ofFailure outcome).Obeys policy := by
  rw [← (Program.ofFailure outcome).bind_done]
  exact ofFailure_bind hregular fun _ _ ↦ trivial

theorem handling_bind {handler : Handler} {program : Program First}
    {next : Except Exception First → Program Result} (hguards : policy.guards handler program)
    (hprogram : program.Obeys policy) (hnext : ∀ result, (next result).Obeys policy) :
    (Program.handling handler program >>= next).Obeys policy :=
  ⟨hguards, hprogram, hnext⟩

end Program.Obeys

end Metaobject
