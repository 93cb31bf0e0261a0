import Metaobject.Proofs.Heap.Ownership
import Metaobject.Proofs.Session.CallDepth

/-!
# What reachable heaps inherit

The heap of a session comes about from the empty one by single steps: every effect is one
(`Effect.heapStep_answer`), and so is putting in a module when a session starts. What the empty heap
has and every step keeps therefore holds in every reachable world (`Session.Reaches.inherits`), in
particular that each attribute dict belongs to one object only (`Session.Reaches.dictsPrecede`).
-/

set_option autoImplicit false
set_option relaxedAutoImplicit false

namespace Metaobject

/-! ### Effects -/

theorem World.heapStep_emit (world : World) (operation : Output → Except Exception Output) :
    Heap.Step world.heap (world.emit operation).2.heap := by
  unfold World.emit
  split <;> exact .same _

/-- An effect is a single step of the heap. -/
theorem Effect.heapStep_answer (settings : Settings) {Answer : Type} (effect : Effect Answer)
    (world : World) : Heap.Step world.heap (effect.answer settings world).2.heap := by
  cases effect with
  | newList | newDict | newCell | newIterator | newFunction | newMethod | newCode | newException =>
    exact .bare rfl
  | newInstance | newModule => exact .owner rfl
  | newClass definition =>
    simp only [answer, World.createClass]
    split
    · exact .same _
    · exact .owner rfl
  | bindName | insertEntry | eraseEntry => exact Heap.step_updateDict _
  | storeAttribute holder name content =>
    simp only [answer, World.storeAttribute]
    split
    · exact Heap.step_updateDict _
    · exact .same _
  | appendItem list item => exact Heap.step_append item
  | setCell cell content => exact Heap.step_setCell content
  | fillCell cell content =>
    simp only [answer, World.fillCell]
    split
    · exact Heap.step_setCell content
    · exact .same _
  | takeItem iterator =>
    simp only [answer]
    split
    · exact .same _
    · exact Heap.step_advance _
  | takeAll iterator => exact Heap.step_advance []
  | permitBits bits =>
    simp only [answer]
    split <;> exact .same _
  | write text => exact world.heapStep_emit fun output ↦ output.write text
  | flush => exact world.heapStep_emit Output.flush
  | importModule request =>
    simp only [answer, World.importModule]
    split
    · exact .same _
    · split <;> exact .same _
  | compileSource request =>
    simp only [answer, World.compileSource]
    split
    · exact .same _
    · split
      · exact .same _
      · exact .bare rfl
  | enterBody code =>
    simp only [answer, World.enterBody]
    split
    · exact .same _
    · split
      · exact .same _
      · split <;> exact .same _
  | heap | depth | reportMetaclass | reportClass => exact .same _

theorem Moment.IsStep.heapStep {settings : Settings} {moment : Moment}
    (hstep : moment.IsStep settings) : Heap.Step moment.before.heap moment.after.heap := by
  obtain ⟨action, before, after⟩ := moment
  cases action with
  | performs effect =>
    have hafter : after = (effect.answer settings before).2 := hstep
    exact hafter ▸ effect.heapStep_answer settings before
  | asks | refuses =>
    have hafter : after = before := hstep
    exact hafter ▸ .same before.heap
  | enters =>
    have hafter : after = { before with depth := before.depth + 1 } := hstep
    exact hafter ▸ .same before.heap
  | leaves =>
    have hafter : after = { before with depth := before.depth - 1 } := hstep
    exact hafter ▸ .same before.heap
  | reports event =>
    have hafter : after = before.observe event := hstep
    exact hafter ▸ .same before.heap

/-! ### Runs -/

section

variable {holds : Heap → Prop}
  (hkept : ∀ older newer, Heap.Step older newer → holds older → holds newer)

include hkept

/-- What every step keeps holds at every moment of a history. -/
theorem Linked.inherits {settings : Settings} {world final : World} {moments : List Moment}
    (hlinked : Linked settings world moments final) (hworld : holds world.heap) :
    (∀ moment ∈ moments, holds moment.before.heap ∧ holds moment.after.heap) ∧
      holds final.heap := by
  induction hlinked with
  | nil => exact ⟨fun _ hmoment ↦ absurd hmoment List.not_mem_nil, hworld⟩
  | cons moment hstep _ ih =>
    have hafter := hkept _ _ hstep.heapStep hworld
    exact ⟨List.forall_mem_cons.mpr ⟨⟨hworld, hafter⟩, (ih hafter).1⟩, (ih hafter).2⟩

theorem Session.addModules_inherits (names : List String) (world : World)
    (hworld : holds world.heap) : holds (addModules names world).2.heap := by
  induction names generalizing world with
  | nil => exact hworld
  | cons name rest ih => exact ih (addModule name world).2 (hkept _ _ (.owner rfl) hworld)

variable (hempty : holds .empty) {configuration : Configuration}

include hempty

theorem Session.Rests.inherits {session : Session} (hrests : Rests configuration session) :
    holds session.world.heap := by
  induction hrests with
  | start => exact addModules_inherits hkept _ _ (hkept _ _ (.bare rfl) hempty)
  | @step session _ patience statement ih =>
    exact ((session.linked_history patience statement).inherits hkept ih).2

/-- What the empty heap has and every step keeps holds in all reachable worlds. -/
theorem Session.Reaches.inherits {world : World} (hreaches : Reaches configuration world) :
    holds world.heap := by
  have hpasses : ∀ moment, Passes configuration moment →
      holds moment.before.heap ∧ holds moment.after.heap := by
    rintro moment ⟨session, patience, statement, hrests, hmoment⟩
    have hlinked := session.linked_history patience statement
    exact (hlinked.inherits hkept (hrests.inherits hkept hempty)).1 moment hmoment
  cases hreaches with
  | rests hrests => exact hrests.inherits hkept hempty
  | before hmoment => exact (hpasses _ hmoment).1
  | after hmoment => exact (hpasses _ hmoment).2

end

/-- In every reachable world each attribute dict belongs to one object. -/
theorem Session.Reaches.dictsPrecede {configuration : Configuration} {world : World}
    (hreaches : Reaches configuration world) : world.heap.DictsPrecede :=
  hreaches.inherits (fun _ _ hstep ↦ hstep.dictsPrecede) Heap.dictsPrecede_empty

end Metaobject
