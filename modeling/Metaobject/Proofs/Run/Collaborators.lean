import Metaobject.Proofs.Arguments.Slots
import Metaobject.Proofs.Run.Deeds

/-!
# Programs that consult collaborators

An importer and a compiler are collaborators: what they answer, and what they do to the world, is
theirs. Deeds lead from one world to another when each is answered as the world answers it, except
that collaborators and requests may answer anything and leave any world (`World.Passes`). The deeds
of a run lead from its first world to its last one (`Program.passes_deeds`).

A program that consults no collaborator and makes no request is native (`Program.Native`); its deeds
are those of its run (`Program.Native.run_of_does`). So a native program that ends with the
consultation of a collaborator consults it once and last, or is cut before that
(`Program.Does.of_consultation`). Programs that check something give a result or raise an exception
(`Program.Concludes`).
-/

set_option autoImplicit false
set_option relaxedAutoImplicit false

namespace Metaobject

/-! ### Deeds of collaborators -/

/-- Whether an effect consults the importer or the compiler. -/
def Effect.isConsultation : {Answer : Type} → Effect Answer → Bool
  | _, .importModule _ | _, .compileSource _ => true
  | _, _ => false

/-- Whether a deed is an effect that consults no collaborator. -/
def Deed.isNative : Deed → Bool
  | .performs effect _ => !effect.isConsultation
  | .asks _ _ => false

/-- Whether deeds lead from one world to another. Collaborators and requests may answer anything and
leave any world. -/
def World.Passes (settings : Settings) : World → List Deed → World → Prop
  | world, [], final => final = world
  | world, .performs effect ending :: rest, final =>
    ∃ reached, (effect.isConsultation = false → (ending, reached) = effect.answer settings world) ∧
      Passes settings reached rest final
  | _, .asks _ _ :: rest, final => ∃ reached, Passes settings reached rest final

section

variable {settings : Settings}
  {respond : {Answer : Type} → Request Answer → World → Ending Answer × World}
  {Result First Second : Type} {world final : World} {deeds : List Deed}

theorem World.passes_append {first second : List Deed} :
    world.Passes settings (first ++ second) final ↔
      ∃ middle, world.Passes settings first middle ∧ middle.Passes settings second final := by
  induction first generalizing world with
  | nil => exact ⟨fun hpasses ↦ ⟨world, rfl, hpasses⟩, fun ⟨_, hsame, hpasses⟩ ↦ hsame ▸ hpasses⟩
  | cons deed rest ih =>
    cases deed with
    | performs effect ending =>
      simp only [List.cons_append, Passes, ih]
      constructor
      · rintro ⟨reached, hanswer, middle, hrest, hsecond⟩
        exact ⟨middle, ⟨reached, hanswer, hrest⟩, hsecond⟩
      · rintro ⟨middle, ⟨reached, hanswer, hrest⟩, hsecond⟩
        exact ⟨reached, hanswer, middle, hrest, hsecond⟩
    | asks request ending =>
      simp only [List.cons_append, Passes, ih]
      exact exists_comm.trans (exists_congr fun _ ↦ exists_and_right)

/-- The deeds of a run lead to its last world. -/
theorem Program.passes_deeds (program : Program Result) (world : World) :
    world.Passes settings (program.deeds settings respond world)
      (program.run settings respond world).2 := by
  induction program generalizing world with
  | done | raise | fault => rfl
  | perform effect next ih =>
    rw [Program.deeds, run]
    refine ⟨(effect.answer settings world).2, fun _ ↦ rfl, ?_⟩
    rcases Ending.value_or_cut (effect.answer settings world) with ⟨answer, hanswer⟩ | ⟨cut, hcut⟩
    · rw [hanswer]
      exact ih answer _
    · rw [hcut, cut.andThen_ending]
      cases cut <;> rfl
  | ask request next ih =>
    rw [Program.deeds, run]
    refine ⟨(respond request world).2, ?_⟩
    rcases Ending.value_or_cut (respond request world) with ⟨answer, hanswer⟩ | ⟨cut, hcut⟩
    · rw [hanswer]
      exact ih answer _
    · rw [hcut, cut.andThen_ending]
      cases cut <;> rfl
  | attempt handler body next ihbody ihnext =>
    rw [Program.deeds, run, World.passes_append]
    refine ⟨_, ihbody world, ?_⟩
    generalize body.run settings respond world = outcome
    obtain ⟨ending, reached⟩ := outcome
    cases ending with
    | value answer => exact ihnext (.ok answer) reached
    | raised exception =>
      by_cases htaken : handler.takes exception = true
      · simp only [Ending.handled, if_pos htaken]
        exact ihnext (.error exception) reached
      · simp only [Ending.handled, if_neg htaken]
        rfl
    | fault | exhausted => rfl

/-! ### Native programs -/

/-- Whether a program consults no collaborator and makes no request, however it is answered. -/
def Program.Native : {Result : Type} → Program Result → Prop
  | _, .done _ | _, .raise _ | _, .fault _ => True
  | _, .perform effect next => effect.isConsultation = false ∧ ∀ answer, (next answer).Native
  | _, .ask _ _ => False
  | _, .attempt _ body next => body.Native ∧ ∀ result, (next result).Native

namespace Program.Native

theorem bind {program : Program First} {next : First → Program Second} (hprogram : program.Native)
    (hnext : ∀ result, (next result).Native) : (program >>= next).Native := by
  show (program.bind next).Native
  induction program with
  | done result => exact hnext result
  | raise | fault => trivial
  | perform effect continuation ih =>
    exact ⟨hprogram.1, fun answer ↦ ih answer (hprogram.2 answer) hnext⟩
  | ask => exact absurd hprogram id
  | attempt handler body continuation _ ih =>
    exact ⟨hprogram.1, fun result ↦ ih result (hprogram.2 result) hnext⟩

theorem ofExcept (outcome : Except Exception Result) : (Program.ofExcept outcome).Native := by
  cases outcome <;> trivial

theorem ofFailure (outcome : Except Failure Result) : (Program.ofFailure outcome).Native := by
  cases outcome with
  | ok => trivial
  | error failure => cases failure <;> trivial

/-- What a native program may do is what it does in a run, whatever answers requests. -/
theorem run_of_does {program : Program Result} (hnative : program.Native) {ending : Ending Result}
    (hdoes : program.Does deeds ending) (hpasses : world.Passes settings deeds final) :
    program.run settings respond world = (ending, final) ∧ ∀ deed ∈ deeds, deed.isNative := by
  induction program generalizing world deeds final with
  | done | raise | fault =>
    obtain ⟨rfl, rfl⟩ := hdoes
    obtain rfl : final = world := hpasses
    exact ⟨rfl, fun _ hdeed ↦ absurd hdeed List.not_mem_nil⟩
  | perform effect next ih =>
    have hfirst : ∀ ending, (Deed.performs effect ending).isNative := fun _ ↦ by
      rw [Deed.isNative, hnative.1]
      rfl
    rcases hdoes with ⟨answer, later, rfl, hlater⟩ | ⟨cut, rfl, rfl⟩
    · obtain ⟨reached, hanswer, hrest⟩ := hpasses
      obtain ⟨hrun, hdeeds⟩ := ih answer (hnative.2 answer) hlater hrest
      refine ⟨?_, List.forall_mem_cons.mpr ⟨hfirst _, hdeeds⟩⟩
      rw [run, ← hanswer hnative.1]
      exact hrun
    · obtain ⟨_, hanswer, rfl⟩ := hpasses
      refine ⟨?_, List.forall_mem_singleton.mpr (hfirst _)⟩
      rw [run, ← hanswer hnative.1, cut.andThen_ending]
  | ask => exact absurd hnative id
  | attempt handler body next ihbody ihnext =>
    obtain ⟨hbody, hnext⟩ := hnative
    rw [run]
    rcases hdoes with ⟨answer, earlier, later, hearlier, rfl, hlater⟩ |
      ⟨exception, earlier, later, hearlier, htaken, rfl, hlater⟩ | ⟨cut, hcut, huntaken, rfl⟩
    · obtain ⟨middle, hfirst, hsecond⟩ := World.passes_append.mp hpasses
      obtain ⟨hrun, hdeeds⟩ := ihbody hbody hearlier hfirst
      obtain ⟨hrest, hothers⟩ := ihnext _ (hnext _) hlater hsecond
      rw [hrun]
      exact ⟨hrest, List.forall_mem_append.mpr ⟨hdeeds, hothers⟩⟩
    · obtain ⟨middle, hfirst, hsecond⟩ := World.passes_append.mp hpasses
      obtain ⟨hrun, hdeeds⟩ := ihbody hbody hearlier hfirst
      obtain ⟨hrest, hothers⟩ := ihnext _ (hnext _) hlater hsecond
      rw [hrun, Ending.handled, if_pos htaken]
      exact ⟨hrest, List.forall_mem_append.mpr ⟨hdeeds, hothers⟩⟩
    · obtain ⟨hrun, hdeeds⟩ := ihbody hbody hcut hpasses
      refine ⟨?_, hdeeds⟩
      rw [hrun]
      cases cut with
      | raised exception => exact if_neg (Bool.eq_false_iff.mp (huntaken exception rfl))
      | fault | exhausted => rfl

end Program.Native

/-! ### Consultations -/

/-- A native program that is followed by the consultation of a collaborator either gives what the
collaborator is consulted with, and the answer is that of the collaborator, or is cut. -/
theorem Program.Does.of_consultation {prepare : Program First} {consult : First → Effect Second}
    (hnative : prepare.Native) {ending : Ending Second}
    (hdoes : (prepare >>= fun request ↦ Program.effect (consult request)).Does deeds ending)
    (hpasses : world.Passes settings deeds final) :
    (∃ request before middle, prepare.run settings respond world = (.value request, middle) ∧
      deeds = before ++ [.performs (consult request) ending] ∧ (∀ deed ∈ before, deed.isNative) ∧
        world.Passes settings before middle) ∨
    ∃ cut : Cut, prepare.run settings respond world = (cut.ending, final) ∧ ending = cut.ending ∧
      ∀ deed ∈ deeds, deed.isNative := by
  rcases hdoes.bind with ⟨request, before, later, hbefore, rfl, hlater⟩ | ⟨cut, hcut, rfl⟩
  · obtain rfl := hlater.of_effect
    obtain ⟨middle, hmiddle, -⟩ := World.passes_append.mp hpasses
    obtain ⟨hrun, hdeeds⟩ := hnative.run_of_does hbefore hmiddle
    exact Or.inl ⟨request, before, middle, hrun, rfl, hdeeds, hmiddle⟩
  · obtain ⟨hrun, hdeeds⟩ := hnative.run_of_does hcut hpasses
    exact Or.inr ⟨cut, hrun, rfl, hdeeds⟩

end

/-! ### Programs that check -/

/-- Whether a run gives a result of one kind or raises an exception of another. -/
def Program.Concludes (settings : Settings)
    (respond : {Answer : Type} → Request Answer → World → Ending Answer × World) {Result : Type}
    (program : Program Result) (world : World) (gives : Result → World → Prop)
    (fails : Exception → Prop) : Prop :=
  (∃ result final, program.run settings respond world = (.value result, final) ∧
    gives result final) ∨
  ∃ exception final, program.run settings respond world = (.raised exception, final) ∧
    fails exception

namespace Program.Concludes

variable {settings : Settings}
  {respond : {Answer : Type} → Request Answer → World → Ending Answer × World}
  {Result First Second : Type} {world : World} {fails others : Exception → Prop}

theorem bind {program : Program First} {next : First → Program Second}
    {gives : First → World → Prop} {last : Second → World → Prop}
    (hprogram : program.Concludes settings respond world gives fails)
    (hnext : ∀ result middle, gives result middle →
      (next result).Concludes settings respond middle last others)
    (hfails : ∀ exception, fails exception → others exception) :
    (program >>= next).Concludes settings respond world last others := by
  rcases hprogram with ⟨result, middle, hrun, hgives⟩ | ⟨exception, final, hrun, hfault⟩
  · have hleads : (program >>= next).run settings respond world =
        (next result).run settings respond middle := by
      rw [run_bind_apply, hrun]
      rfl
    rw [Concludes, hleads]
    exact hnext result middle hgives
  · refine Or.inr ⟨exception, final, ?_, hfails exception hfault⟩
    rw [run_bind_apply, hrun]
    rfl

theorem mono {program : Program Result} {gives last : Result → World → Prop}
    (hprogram : program.Concludes settings respond world gives fails)
    (hgives : ∀ result final, gives result final → last result final)
    (hfails : ∀ exception, fails exception → others exception) :
    program.Concludes settings respond world last others := by
  rcases hprogram with ⟨result, final, hrun, hresult⟩ | ⟨exception, final, hrun, hfault⟩
  · exact Or.inl ⟨result, final, hrun, hgives result final hresult⟩
  · exact Or.inr ⟨exception, final, hrun, hfails exception hfault⟩

theorem heap_bind {next : Heap → Program Result} {gives : Result → World → Prop}
    (hnext : (next world.heap).Concludes settings respond world gives fails) :
    (Program.heap >>= next).Concludes settings respond world gives fails :=
  hnext

theorem pure {gives : Result → World → Prop} {result : Result} (hgives : gives result world) :
    (Pure.pure result : Program Result).Concludes settings respond world gives fails :=
  Or.inl ⟨result, world, rfl, hgives⟩

theorem raise {gives : Result → World → Prop} {exception : Exception} (hfails : fails exception) :
    (Program.raise exception : Program Result).Concludes settings respond world gives fails :=
  Or.inr ⟨exception, world, rfl, hfails⟩

theorem ofExcept {gives : Result → Prop} {outcome : Except Exception Result}
    (houtcome : Metaobject.Concludes gives fails outcome) :
    (Program.ofExcept outcome).Concludes settings respond world
      (fun result final ↦ gives result ∧ final = world) fails := by
  cases outcome with
  | ok result => exact Or.inl ⟨result, world, rfl, houtcome, rfl⟩
  | error exception => exact Or.inr ⟨exception, world, rfl, houtcome⟩

theorem ofFailure {gives : Result → Prop} {outcome : Except Failure Result}
    (houtcome : Metaobject.Concludes gives
      (fun failure ↦ ∃ exception, failure = .raised exception ∧ fails exception) outcome) :
    (Program.ofFailure outcome).Concludes settings respond world
      (fun result final ↦ gives result ∧ final = world) fails := by
  cases outcome with
  | ok result => exact Or.inl ⟨result, world, rfl, houtcome, rfl⟩
  | error failure =>
    obtain ⟨exception, rfl, hfails⟩ := houtcome
    exact Or.inr ⟨exception, world, rfl, hfails⟩

end Program.Concludes

end Metaobject
