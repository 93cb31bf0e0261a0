import Metaobject.Proofs.Heap.Growth
import Metaobject.Proofs.Run.History

/-!
# What iterators hand out

An iterator hands out the items that are taken from it, one at a time or all that are left, whoever
takes them (`Effect.handed`, `Moment.handed`). Nothing else changes what is left in it
(`Heap.KeepsIterators`, `Effect.keepsIterators_answer`). So over every history the items that it
hands out, followed by those that it has left, are those that it had at the start
(`Linked.exists_left`): each item is handed out once and in order.
-/

set_option autoImplicit false
set_option relaxedAutoImplicit false

namespace Metaobject

/-! ### Iterators over a step -/

namespace Heap

/-- Whether every iterator keeps what is left in it, except at one address. -/
def KeepsIterators (taken : Option Address) (older newer : Heap) : Prop :=
  ∀ iterator items, taken ≠ some iterator → older.get? iterator = some (.iterator items) →
    newer.get? iterator = some (.iterator items)

variable {heap older newer : Heap} {taken : Option Address} {address : Address}

theorem KeepsIterators.refl (taken : Option Address) (heap : Heap) :
    KeepsIterators taken heap heap :=
  fun _ _ _ hiterator ↦ hiterator

theorem Extends.keepsIterators (hextends : older.Extends newer) :
    KeepsIterators taken older newer :=
  fun iterator items _ hiterator ↦ hextends iterator (.iterator items) hiterator

/-- Replacing an object that is no iterator. -/
theorem keepsIterators_replace {old : Object} (hold : heap.get? address = some old)
    (hother : ∀ items, old ≠ .iterator items) (new : Object) :
    KeepsIterators taken heap (heap.replace address new) := by
  intro iterator items _ hiterator
  have hne : address ≠ iterator := by
    rintro rfl
    exact hother items (Option.some.inj (hold.symm.trans hiterator))
  rwa [get?_replace, if_neg hne]

theorem keepsIterators_updateDict (change : Entries Value → Entries Value) :
    KeepsIterators taken heap (heap.updateDict address change) := by
  unfold updateDict
  split
  · rename_i entries hentries
    exact keepsIterators_replace (dict?_eq_some_iff.mp hentries) (fun _ hsame ↦ nomatch hsame) _
  · exact .refl taken heap

theorem keepsIterators_setCell (content : Value) :
    KeepsIterators taken heap (heap.setCell address content) := by
  unfold setCell
  split
  · rename_i old hold
    exact keepsIterators_replace (cell?_eq_some_iff.mp hold) (fun _ hsame ↦ nomatch hsame) _
  · exact .refl taken heap

theorem keepsIterators_append (item : Value) :
    KeepsIterators taken heap (heap.append address item) := by
  unfold append
  split
  · rename_i items hitems
    exact keepsIterators_replace (list?_eq_some_iff.mp hitems) (fun _ hsame ↦ nomatch hsame) _
  · exact .refl taken heap

/-- Taking items from an iterator leaves the other ones alone. -/
theorem keepsIterators_advance (remaining : List Value) :
    KeepsIterators (some address) heap (heap.advance address remaining) := by
  intro iterator items hother hiterator
  unfold advance
  split
  · rwa [get?_replace, if_neg fun hsame ↦ hother (congrArg some hsame)]
  · exact hiterator

theorem get?_advance {items : List Value} (hiterator : heap.get? address = some (.iterator items))
    (remaining : List Value) :
    (heap.advance address remaining).get? address = some (.iterator remaining) := by
  rw [advance, hiterator, get?_replace, if_pos rfl, if_pos (lt_size_of_get? hiterator)]

theorem remaining_of_get? {items : List Value}
    (hiterator : heap.get? address = some (.iterator items)) : heap.remaining address = items := by
  rw [remaining, hiterator]

end Heap

/-! ### Effects -/

namespace Effect

/-- The iterator from which an effect takes items. -/
def taken? : {Answer : Type} → Effect Answer → Option Address
  | _, .takeItem iterator | _, .takeAll iterator => some iterator
  | _, _ => none

/-- The items of an iterator that are handed out with an answer to an effect. -/
def given (iterator : Address) : {Answer : Type} → Effect Answer → Answer → List Value
  | _, .takeItem other, found => if other = iterator then found.toList else []
  | _, .takeAll other, items => if other = iterator then items else []
  | _, _, _ => []

/-- The items of an iterator that an effect hands out in a world. -/
def handed (settings : Settings) (iterator : Address) {Answer : Type} (effect : Effect Answer)
    (world : World) : List Value :=
  match (effect.answer settings world).1 with
  | .value answer => effect.given iterator answer
  | _ => []

variable {settings : Settings} {iterator : Address} {Answer : Type}

theorem given_of_taken? {effect : Effect Answer} (hother : effect.taken? ≠ some iterator)
    (answer : Answer) : effect.given iterator answer = [] := by
  cases effect with
  | takeItem | takeAll => exact if_neg fun hsame ↦ hother (congrArg some hsame)
  | _ => rfl

theorem handed_of_taken? {effect : Effect Answer} (hother : effect.taken? ≠ some iterator)
    (world : World) : effect.handed settings iterator world = [] := by
  unfold handed
  split
  · exact given_of_taken? hother _
  · rfl

/-- An effect leaves every iterator alone but the one from which it takes. -/
theorem keepsIterators_answer (settings : Settings) (effect : Effect Answer) (world : World) :
    Heap.KeepsIterators effect.taken? world.heap (effect.answer settings world).2.heap := by
  have hdict : ∀ (entries : Entries Value) (object : Object),
      world.heap.Extends ((world.heap.allocate (.dict entries)).allocate object) :=
    fun entries object address found hfound ↦ Heap.extends_allocate _ object address found
      (world.heap.extends_allocate (.dict entries) address found hfound)
  cases effect with
  | newList | newDict | newCell | newIterator | newFunction | newMethod | newCode | newException =>
    exact (world.heap.extends_allocate _).keepsIterators
  | newInstance | newModule => exact (hdict _ _).keepsIterators
  | newClass definition =>
    simp only [answer, World.createClass]
    split
    · exact .refl _ _
    · exact (hdict _ _).keepsIterators
  | bindName | insertEntry | eraseEntry => exact Heap.keepsIterators_updateDict _
  | storeAttribute holder name content =>
    simp only [answer, World.storeAttribute]
    split
    · exact Heap.keepsIterators_updateDict _
    · exact .refl _ _
  | appendItem list item => exact Heap.keepsIterators_append item
  | setCell cell content => exact Heap.keepsIterators_setCell content
  | fillCell cell content =>
    simp only [answer, World.fillCell]
    split
    · exact Heap.keepsIterators_setCell content
    · exact .refl _ _
  | takeItem iterator =>
    simp only [answer]
    split
    · exact .refl _ _
    · exact Heap.keepsIterators_advance _
  | takeAll iterator => exact Heap.keepsIterators_advance []
  | permitBits bits =>
    simp only [answer]
    split <;> exact .refl _ _
  | write | flush =>
    simp only [answer, World.emit]
    split <;> exact .refl _ _
  | importModule request =>
    simp only [answer, World.importModule]
    split
    · exact .refl _ _
    · split <;> exact .refl _ _
  | compileSource request =>
    simp only [answer, World.compileSource]
    split
    · exact .refl _ _
    · split
      · exact .refl _ _
      · exact (world.heap.extends_allocate _).keepsIterators
  | enterBody code =>
    simp only [answer, World.enterBody]
    split
    · exact .refl _ _
    · split
      · exact .refl _ _
      · split <;> exact .refl _ _
  | heap | depth | reportMetaclass | reportClass => exact .refl _ _

section

variable {world : World} {item : Value} {items : List Value}

theorem answer_takeItem_nil (hiterator : world.heap.get? iterator = some (.iterator [])) :
    (takeItem iterator).answer settings world = (.value none, world) := by
  rw [answer, Heap.remaining_of_get? hiterator]

theorem answer_takeItem_cons
    (hiterator : world.heap.get? iterator = some (.iterator (item :: items))) :
    (takeItem iterator).answer settings world =
      (.value (some item), world.mapHeap (·.advance iterator items)) := by
  rw [answer, Heap.remaining_of_get? hiterator]

theorem answer_takeAll (hiterator : world.heap.get? iterator = some (.iterator items)) :
    (takeAll iterator).answer settings world =
      (.value items, world.mapHeap (·.advance iterator [])) := by
  rw [answer, Heap.remaining_of_get? hiterator]

end

/-- What an effect hands out of an iterator, followed by what is left in it, is what was left in it
before. -/
theorem exists_left (settings : Settings) (effect : Effect Answer) {world : World}
    {items : List Value} (hiterator : world.heap.get? iterator = some (.iterator items)) :
    ∃ left, (effect.answer settings world).2.heap.get? iterator = some (.iterator left) ∧
      effect.handed settings iterator world ++ left = items := by
  by_cases htaken : effect.taken? = some iterator
  · cases effect with
    | takeItem =>
      obtain rfl := Option.some.inj htaken
      cases items with
      | nil =>
        refine ⟨[], ?_, ?_⟩
        · rw [answer_takeItem_nil hiterator]
          exact hiterator
        · rw [handed, answer_takeItem_nil hiterator]
          simp only [given, if_pos, Option.toList_none, List.append_nil]
      | cons item rest =>
        refine ⟨rest, ?_, ?_⟩
        · rw [answer_takeItem_cons hiterator]
          exact Heap.get?_advance hiterator rest
        · rw [handed, answer_takeItem_cons hiterator]
          simp only [given, if_pos, Option.toList_some, List.singleton_append]
    | takeAll =>
      obtain rfl := Option.some.inj htaken
      refine ⟨[], Heap.get?_advance hiterator [], ?_⟩
      rw [handed, answer_takeAll hiterator]
      simp only [given, if_pos, List.append_nil]
    | _ => cases htaken
  · refine ⟨items, keepsIterators_answer settings effect world iterator items htaken hiterator, ?_⟩
    rw [handed_of_taken? htaken, List.nil_append]

end Effect

/-! ### Histories -/

/-- The items of an iterator that are handed out at a moment. -/
def Moment.handed (settings : Settings) (iterator : Address) (moment : Moment) : List Value :=
  match moment.action with
  | .performs effect => effect.handed settings iterator moment.before
  | _ => []

/-- The items of an iterator that are handed out at some moments, in order. -/
def handedOut (settings : Settings) (iterator : Address) (moments : List Moment) : List Value :=
  moments.flatMap (Moment.handed settings iterator)

section

variable {settings : Settings} {iterator : Address} {items : List Value}

theorem Moment.IsStep.exists_left {moment : Moment} (hstep : moment.IsStep settings)
    (hiterator : moment.before.heap.get? iterator = some (.iterator items)) :
    ∃ left, moment.after.heap.get? iterator = some (.iterator left) ∧
      moment.handed settings iterator ++ left = items := by
  obtain ⟨action, before, after⟩ := moment
  cases action with
  | performs effect =>
    have hafter : after = (effect.answer settings before).2 := hstep
    exact hafter ▸ effect.exists_left settings hiterator
  | asks | refuses =>
    have hafter : after = before := hstep
    exact ⟨items, hafter ▸ hiterator, rfl⟩
  | enters =>
    have hafter : after = { before with depth := before.depth + 1 } := hstep
    exact ⟨items, hafter ▸ hiterator, rfl⟩
  | leaves =>
    have hafter : after = { before with depth := before.depth - 1 } := hstep
    exact ⟨items, hafter ▸ hiterator, rfl⟩
  | reports event =>
    have hafter : after = before.observe event := hstep
    exact ⟨items, hafter ▸ hiterator, rfl⟩

/-- What an iterator hands out in a history, followed by what is left in it, is what was left in it
before. -/
theorem Linked.exists_left {world final : World} {moments : List Moment}
    (hlinked : Linked settings world moments final)
    (hiterator : world.heap.get? iterator = some (.iterator items)) :
    ∃ left, final.heap.get? iterator = some (.iterator left) ∧
      handedOut settings iterator moments ++ left = items := by
  induction hlinked generalizing items with
  | nil => exact ⟨items, hiterator, rfl⟩
  | cons moment hstep _ ih =>
    obtain ⟨middle, hmiddle, hfirst⟩ := hstep.exists_left hiterator
    obtain ⟨left, hleft, hrest⟩ := ih hmiddle
    refine ⟨left, hleft, ?_⟩
    rw [handedOut, List.flatMap_cons, List.append_assoc, ← handedOut, hrest, hfirst]

end

end Metaobject
