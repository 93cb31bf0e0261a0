import Metaobject.Proofs.Obedience.Call
import Metaobject.Proofs.Run.Bracketing

/-!
# Programs in any surroundings

What a program may do when nothing is assumed of what surrounds it: every effect and every request
may be answered in any way (`Program.Does`). Its deeds are what it asks for itself, each with the
answer (`Deed`); what happens inside the answers is left out. A program after another one does
something only when that one has given a value (`Program.Does.bind`). The deeds of a run are among
those that the program may do (`Program.does_deeds`). A program that obeys the policy of writing
nothing writes nothing in any surroundings (`Program.Obeys.isOutput_eq_false`); all programs do but
that of `print`.
-/

set_option autoImplicit false
set_option relaxedAutoImplicit false

namespace Metaobject

/-- Something that a program asks for, with how that ended. -/
inductive Deed : Type 1
  | performs {Answer : Type} (effect : Effect Answer) (ending : Ending Answer)
  | asks {Answer : Type} (request : Request Answer) (ending : Ending Answer)

/-- Whether a deed writes text or flushes it. -/
def Deed.isOutput : Deed → Bool
  | .performs (.write _) _ | .performs .flush _ => true
  | _ => false

/-- Whether a program may do the deeds and end so. -/
def Program.Does : {Result : Type} → Program Result → List Deed → Ending Result → Prop
  | _, .done result, deeds, ending => deeds = [] ∧ ending = .value result
  | _, .raise exception, deeds, ending => deeds = [] ∧ ending = .raised exception
  | _, .fault message, deeds, ending => deeds = [] ∧ ending = .fault message
  | _, .perform effect next, deeds, ending =>
    (∃ answer later, deeds = .performs effect (.value answer) :: later ∧
      (next answer).Does later ending) ∨
    ∃ cut : Cut, deeds = [.performs effect cut.ending] ∧ ending = cut.ending
  | _, .ask request next, deeds, ending =>
    (∃ answer later, deeds = .asks request (.value answer) :: later ∧
      (next answer).Does later ending) ∨
    ∃ cut : Cut, deeds = [.asks request cut.ending] ∧ ending = cut.ending
  | _, .attempt handler body next, deeds, ending =>
    (∃ answer earlier later, body.Does earlier (.value answer) ∧ deeds = earlier ++ later ∧
      (next (.ok answer)).Does later ending) ∨
    (∃ exception earlier later, body.Does earlier (.raised exception) ∧
      handler.takes exception = true ∧ deeds = earlier ++ later ∧
        (next (.error exception)).Does later ending) ∨
    ∃ cut : Cut, body.Does deeds cut.ending ∧
      (∀ exception, cut = .raised exception → handler.takes exception = false) ∧
        ending = cut.ending

/-- What a run of a program does. -/
def Program.deeds (settings : Settings)
    (respond : {Answer : Type} → Request Answer → World → Ending Answer × World) :
    {Result : Type} → Program Result → World → List Deed
  | _, .done _, _ | _, .raise _, _ | _, .fault _, _ => []
  | _, .perform effect next, world =>
    let outcome := effect.answer settings world
    .performs effect outcome.1 :: match outcome with
      | (.value answer, reached) => (next answer).deeds settings respond reached
      | _ => []
  | _, .ask request next, world =>
    let outcome := respond request world
    .asks request outcome.1 :: match outcome with
      | (.value answer, reached) => (next answer).deeds settings respond reached
      | _ => []
  | _, .attempt handler body next, world =>
    body.deeds settings respond world ++ match body.run settings respond world with
      | (.value answer, reached) => (next (.ok answer)).deeds settings respond reached
      | (.raised exception, reached) =>
        if handler.takes exception then (next (.error exception)).deeds settings respond reached
        else []
      | _ => []

namespace Program

variable {Result First Second : Type} {deeds : List Deed}

/-! ### Sequences -/

/-- What a program does after another one: either that one has given a value and this one goes on
with it, or that one is cut and nothing follows. -/
theorem Does.bind {program : Program First} {next : First → Program Second} {ending : Ending Second}
    (hdoes : (program >>= next).Does deeds ending) :
    (∃ result earlier later, program.Does earlier (.value result) ∧ deeds = earlier ++ later ∧
      (next result).Does later ending) ∨
    ∃ cut : Cut, program.Does deeds cut.ending ∧ ending = cut.ending := by
  change (program.bind next).Does deeds ending at hdoes
  induction program generalizing deeds with
  | done result => exact Or.inl ⟨result, [], deeds, ⟨rfl, rfl⟩, rfl, hdoes⟩
  | raise exception => exact Or.inr ⟨.raised exception, ⟨hdoes.1, rfl⟩, hdoes.2⟩
  | fault message => exact Or.inr ⟨.fault message, ⟨hdoes.1, rfl⟩, hdoes.2⟩
  | perform effect continuation ih | ask request continuation ih =>
    rcases hdoes with ⟨answer, rest, rfl, hrest⟩ | ⟨cut, rfl, hending⟩
    · rcases ih answer hrest with
        ⟨result, earlier, later, hearlier, rfl, hlater⟩ | ⟨cut, hcut, hend⟩
      · exact Or.inl ⟨result, _, later, Or.inl ⟨answer, earlier, rfl, hearlier⟩, rfl, hlater⟩
      · exact Or.inr ⟨cut, Or.inl ⟨answer, rest, rfl, hcut⟩, hend⟩
    · exact Or.inr ⟨cut, Or.inr ⟨cut, rfl, rfl⟩, hending⟩
  | attempt handler body continuation _ ih =>
    rcases hdoes with ⟨answer, before, rest, hbody, rfl, hrest⟩ |
      ⟨exception, before, rest, hbody, htaken, rfl, hrest⟩ | ⟨cut, hbody, huntaken, hending⟩
    · rcases ih (.ok answer) hrest with
        ⟨result, earlier, later, hearlier, rfl, hlater⟩ | ⟨cut, hcut, hend⟩
      · exact Or.inl ⟨result, before ++ earlier, later,
          Or.inl ⟨answer, before, earlier, hbody, rfl, hearlier⟩,
          (List.append_assoc _ _ _).symm, hlater⟩
      · exact Or.inr ⟨cut, Or.inl ⟨answer, before, rest, hbody, rfl, hcut⟩, hend⟩
    · rcases ih (.error exception) hrest with
        ⟨result, earlier, later, hearlier, rfl, hlater⟩ | ⟨cut, hcut, hend⟩
      · exact Or.inl ⟨result, before ++ earlier, later,
          Or.inr (Or.inl ⟨exception, before, earlier, hbody, htaken, rfl, hearlier⟩),
          (List.append_assoc _ _ _).symm, hlater⟩
      · exact Or.inr ⟨cut, Or.inr (Or.inl ⟨exception, before, rest, hbody, htaken, rfl, hcut⟩),
          hend⟩
    · exact Or.inr ⟨cut, Or.inr (Or.inr ⟨cut, hbody, huntaken, rfl⟩), hending⟩

/-! ### Single steps -/

theorem Does.of_effect {effect : Effect Result} {ending : Ending Result}
    (hdoes : (Program.effect effect).Does deeds ending) : deeds = [.performs effect ending] := by
  rcases hdoes with ⟨answer, later, rfl, rfl, rfl⟩ | ⟨cut, rfl, rfl⟩ <;> rfl

/-! ### Runs -/

section

variable (settings : Settings)
  (respond : {Answer : Type} → Request Answer → World → Ending Answer × World)

theorem deeds_heap (next : Heap → Program Result) (world : World) :
    (heap >>= next).deeds settings respond world =
      .performs .heap (.value world.heap) :: (next world.heap).deeds settings respond world := by
  show (perform .heap next).deeds settings respond world = _
  rw [Program.deeds]
  rfl

/-- A run does what the program may do. -/
theorem does_deeds (program : Program Result) (world : World) :
    program.Does (program.deeds settings respond world) (program.run settings respond world).1 := by
  induction program generalizing world with
  | done | raise | fault => exact ⟨rfl, rfl⟩
  | perform effect next ih =>
    rcases Ending.value_or_cut (effect.answer settings world) with ⟨answer, hanswer⟩ | ⟨cut, hcut⟩
    · rw [run, Program.deeds, hanswer]
      exact Or.inl ⟨answer, _, rfl, ih answer _⟩
    · rw [run, Program.deeds, hcut]
      refine Or.inr ⟨cut, ?_, ?_⟩ <;> cases cut <;> rfl
  | ask request next ih =>
    rcases Ending.value_or_cut (respond request world) with ⟨answer, hanswer⟩ | ⟨cut, hcut⟩
    · rw [run, Program.deeds, hanswer]
      exact Or.inl ⟨answer, _, rfl, ih answer _⟩
    · rw [run, Program.deeds, hcut]
      refine Or.inr ⟨cut, ?_, ?_⟩ <;> cases cut <;> rfl
  | attempt handler body next ihbody ihnext =>
    have hbody := ihbody world
    rw [run, Program.deeds]
    generalize body.run settings respond world = outcome at hbody ⊢
    obtain ⟨ending, reached⟩ := outcome
    cases ending with
    | value answer => exact Or.inl ⟨answer, _, _, hbody, rfl, ihnext (.ok answer) reached⟩
    | raised exception =>
      by_cases htaken : handler.takes exception = true
      · simp only [Ending.handled, if_pos htaken]
        exact Or.inr (Or.inl ⟨exception, _, _, hbody, htaken, rfl, ihnext _ reached⟩)
      · simp only [Ending.handled, if_neg htaken, List.append_nil]
        refine Or.inr (Or.inr ⟨.raised exception, hbody, fun other hother ↦ ?_, rfl⟩)
        cases hother
        exact Bool.eq_false_iff.mpr htaken
    | fault message =>
      simp only [Ending.handled, List.append_nil]
      refine Or.inr (Or.inr ⟨.fault message, hbody, fun _ hother ↦ ?_, rfl⟩)
      cases hother
    | exhausted =>
      simp only [Ending.handled, List.append_nil]
      refine Or.inr (Or.inr ⟨.exhausted, hbody, fun _ hother ↦ ?_, rfl⟩)
      cases hother

end

end Program

/-! ### Programs that write nothing -/

/-- The policy under which nothing is written and flushed. Everything else is permitted. -/
def Policy.mute : Policy := { Policy.quiet with reports := True, writes := False }

namespace Policy

theorem mute_coversScripts : mute.CoversScripts where
  refusals _ _ := trivial
  misuse := trivial
  drains _ _ := trivial
  runs := trivial
  edits := trivial
  probe _ := trivial
  next _ := trivial

/-- Only `print` writes anything in its program. -/
theorem mute_coversCall {callable : Value} (hother : callable ≠ .builtin (.function .print))
    (arguments : Arguments) : mute.CoversCall callable arguments where
  misuse := trivial
  function _ _ := ⟨mute_coversScripts, fun _ ↦ ⟨trivial, trivial⟩⟩
  buildClass _ := trivial
  print hprint := absurd hprint hother
  collect _ _ _ := trivial
  getattr _ _ _ _ _ := trivial
  hasattr _ _ _ _ := trivial
  next _ _ _ _ := trivial

end Policy

theorem Effect.isOutput_of_mute {Answer : Type} {effect : Effect Answer}
    (hpermitted : effect.Permitted .mute) (ending : Ending Answer) :
    (Deed.performs effect ending).isOutput = false := by
  cases effect <;> first | rfl | exact absurd hpermitted id

/-- A program that obeys the mute policy writes nothing, however it is answered. -/
theorem Program.Obeys.isOutput_eq_false {Result : Type} {program : Program Result}
    (hobeys : program.Obeys .mute) {deeds : List Deed} {ending : Ending Result}
    (hdoes : program.Does deeds ending) : ∀ deed ∈ deeds, deed.isOutput = false := by
  induction program generalizing deeds with
  | done | raise | fault =>
    obtain ⟨rfl, -⟩ := hdoes
    exact fun _ hdeed ↦ absurd hdeed List.not_mem_nil
  | perform effect next ih =>
    have heffect := fun ending ↦ Effect.isOutput_of_mute hobeys.1 ending
    rcases hdoes with ⟨answer, later, rfl, hlater⟩ | ⟨cut, rfl, -⟩
    · have hanswer : effect.Answers .mute answer :=
        effect.answers_of_marks (fun _ ↦ trivial) answer
      exact List.forall_mem_cons.mpr ⟨heffect _, ih answer (hobeys.2 answer hanswer) hlater⟩
    · exact List.forall_mem_singleton.mpr (heffect _)
  | ask request next ih =>
    rcases hdoes with ⟨answer, later, rfl, hlater⟩ | ⟨cut, rfl, -⟩
    · exact List.forall_mem_cons.mpr ⟨rfl, ih answer (hobeys.2 answer) hlater⟩
    · exact List.forall_mem_singleton.mpr rfl
  | attempt handler body next ihbody ihnext =>
    obtain ⟨-, hbody, hnext⟩ := hobeys
    rcases hdoes with ⟨answer, earlier, later, hearlier, rfl, hlater⟩ |
      ⟨exception, earlier, later, hearlier, -, rfl, hlater⟩ | ⟨cut, hcut, -, -⟩
    · exact List.forall_mem_append.mpr ⟨ihbody hbody hearlier, ihnext _ (hnext _) hlater⟩
    · exact List.forall_mem_append.mpr ⟨ihbody hbody hearlier, ihnext _ (hnext _) hlater⟩
    · exact ihbody hbody hcut

end Metaobject
