import Metaobject.Proofs.Run.Reachable

/-!
# Runs that are carried on further

Patience says how far a run is carried on, and nothing else: a run that was carried to its end ends
in the same way with more patience (`Ending.Settles`). This holds of programs if it holds of the
answers to requests (`Program.settles`), hence of the answers by induction on the patience
(`Request.settles`), and of the steps of sessions (`Session.stepWithin_eq_of_le`).
-/

set_option autoImplicit false
set_option relaxedAutoImplicit false

namespace Metaobject

/-! ### Endings -/

/-- Whether a run that was carried to its end is the same as another one. -/
def Ending.Settles {Result : Type} (first second : Ending Result × World) : Prop :=
  first.1 ≠ .exhausted → second = first

namespace Ending

variable {First Second : Type} {first second : Ending First × World}

theorem value_ne_exhausted (result : First) : value result ≠ exhausted := by simp

theorem raised_ne_exhausted (exception : Exception) :
    (raised exception : Ending First) ≠ exhausted := by simp

theorem fault_ne_exhausted (message : String) : (fault message : Ending First) ≠ exhausted := by
  simp

theorem Settles.andThen {next other : First → World → Ending Second × World}
    (hsettles : Settles first second)
    (hnext : ∀ result world, Settles (next result world) (other result world)) :
    Settles (Ending.andThen first next) (Ending.andThen second other) := by
  obtain ⟨ending, world⟩ := first
  intro hends
  cases ending with
  | value result =>
    obtain rfl := hsettles (by simp)
    exact hnext result world hends
  | raised | fault =>
    obtain rfl := hsettles (by simp)
    rfl
  | exhausted => exact absurd rfl hends

theorem Settles.handled {handler : Handler}
    {next other : Except Exception First → World → Ending Second × World}
    (hsettles : Settles first second)
    (hnext : ∀ result world, Settles (next result world) (other result world)) :
    Settles (Ending.handled handler first next) (Ending.handled handler second other) := by
  obtain ⟨ending, world⟩ := first
  intro hends
  cases ending with
  | value result =>
    obtain rfl := hsettles (by simp)
    exact hnext (.ok result) world hends
  | raised exception =>
    obtain rfl := hsettles (by simp)
    by_cases htaken : handler.takes exception = true
    · simp only [Ending.handled, if_pos htaken] at hends ⊢
      exact hnext (.error exception) world hends
    · simp only [Ending.handled, if_neg htaken]
  | fault =>
    obtain rfl := hsettles (by simp)
    rfl
  | exhausted => exact absurd rfl hends

theorem andThen_exhausted {next : First → World → Ending Second × World}
    (hexhausted : first.1 = .exhausted) : (andThen first next).1 = .exhausted := by
  obtain ⟨ending, world⟩ := first
  obtain rfl : ending = .exhausted := hexhausted
  rfl

end Ending

/-! ### Programs and requests -/

/-- A program is carried to its end only if the part that comes first is. -/
theorem Program.run_bind_exhausted {settings : Settings}
    {respond : {Answer : Type} → Request Answer → World → Ending Answer × World}
    {First Second : Type} {program : Program First} {next : First → Program Second} {world : World}
    (hexhausted : (program.run settings respond world).1 = .exhausted) :
    ((program >>= next).run settings respond world).1 = .exhausted := by
  show ((program.bind next).run settings respond world).1 = _
  rw [run_bind]
  exact Ending.andThen_exhausted hexhausted

section

variable (settings : Settings)
  {respond other : {Answer : Type} → Request Answer → World → Ending Answer × World}

/-- A program ends in the same way if its requests do. -/
theorem Program.settles
    (hrespond : ∀ {Answer : Type} (request : Request Answer) (world : World),
      Ending.Settles (respond request world) (other request world))
    {Result : Type} (program : Program Result) (world : World) :
    Ending.Settles (program.run settings respond world) (program.run settings other world) := by
  induction program generalizing world with
  | done | raise | fault => exact fun _ ↦ rfl
  | perform effect next ih =>
    have hsame : Ending.Settles (effect.answer settings world) (effect.answer settings world) :=
      fun _ ↦ rfl
    exact hsame.andThen ih
  | ask request next ih => exact (hrespond request world).andThen ih
  | attempt handler body next ihbody ihnext => exact (ihbody world).handled ihnext

theorem World.deeper_settles {Result : Type} {part otherPart : World → Ending Result × World}
    (hpart : ∀ world, Ending.Settles (part world) (otherPart world)) (world : World) :
    Ending.Settles (world.deeper settings part) (world.deeper settings otherPart) := by
  unfold deeper
  split
  · exact fun _ ↦ rfl
  · intro hends
    rw [hpart { world with depth := world.depth + 1 } hends]

theorem World.reporting_settles {Result : Type} {part otherPart : World → Ending Result × World}
    (hpart : ∀ world, Ending.Settles (part world) (otherPart world)) (builtin : BuiltinFunction)
    (count : Nat) (world : World) :
    Ending.Settles (world.reporting builtin count part)
      (world.reporting builtin count otherPart) := by
  intro hends
  simp only [reporting, hpart (world.observe (.builtinCall builtin.name count world.depth)) hends]

theorem Call.settles
    (hrespond : ∀ {Answer : Type} (request : Request Answer) (world : World),
      Ending.Settles (respond request world) (other request world))
    (callable : Value) (arguments : Arguments) (world : World) :
    Ending.Settles (Call.run settings respond callable arguments world)
      (Call.run settings other callable arguments world) := by
  have hprogram := Program.settles settings hrespond (Call.dispatch callable arguments)
  cases callable with
  | builtin builtin =>
    cases builtin with
    | function builtin => exact World.reporting_settles hprogram builtin arguments.count world
    | type | exception => exact hprogram world
  | _ => exact hprogram world

theorem Request.settles_succ (patience : Nat) {Answer : Type} (request : Request Answer)
    (world : World) :
    Ending.Settles (request.answer settings patience world)
      (request.answer settings (patience + 1) world) := by
  induction patience generalizing Answer request world with
  | zero => exact fun hends ↦ absurd rfl hends
  | succ patience ih =>
    cases request with
    | call callable arguments =>
      exact World.deeper_settles settings (Call.settles settings ih callable arguments) world
    | runCode frame code =>
      exact World.deeper_settles settings (Program.settles settings ih _) world
    | drain iterator =>
      refine (Program.settles settings ih (Operation.advance iterator) world).andThen
        fun step reached ↦ ?_
      cases step with
      | exhausted => exact fun _ ↦ rfl
      | produced item => exact (ih (.drain iterator) reached).andThen fun _ _ _ ↦ rfl

/-- A request that is answered is answered in the same way with more patience. -/
theorem Request.settles {patience more : Nat} (hmore : patience ≤ more) {Answer : Type}
    (request : Request Answer) (world : World) :
    Ending.Settles (request.answer settings patience world)
      (request.answer settings more world) := by
  induction hmore with
  | refl => exact fun _ ↦ rfl
  | @step more _ ih =>
    intro hends
    have hsame := ih hends
    rw [request.settles_succ settings more world (hsame ▸ hends), hsame]

end

/-! ### Steps of sessions -/

/-- A step that was carried to its end ends in the same way with more patience. -/
theorem Session.stepWithin_eq_of_le {patience more : Nat} (hmore : patience ≤ more)
    (session : Session) (statement : Script.Statement)
    (hends : (session.stepWithin patience statement).1 ≠ .exhausted) :
    session.stepWithin more statement = session.stepWithin patience statement := by
  have hsettles := Program.settles session.settings
    (fun request ↦ request.settles session.settings hmore)
    (Script.runStep session.frame statement) session.world
  simp only [stepWithin, hsettles hends]

end Metaobject
