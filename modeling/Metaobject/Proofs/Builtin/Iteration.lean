import Metaobject.Proofs.Run.Iterators
import Metaobject.Proofs.Run.Requests

/-!
# Iterating over native containers

What the calls of `next`, `list` and `tuple` on a native iterator hand out of it, what they leave in
it and what they give (`IteratorCalls`, `iteratorCalls`): `next` hands out the first item that is
left, `list` and `tuple` all of them, and an iterator is its own iterator. A native container has an
iterator over the items that it has at this moment (`NativeItems`), a list and a tuple of the same
items, which are also those of the iterator when it is drained one by one, and as its length their
number (`ContainerCalls`, `containerCalls`).
-/

set_option autoImplicit false
set_option relaxedAutoImplicit false

namespace Metaobject

section

variable {settings : Settings}
  {respond : {Answer : Type} → Request Answer → World → Ending Answer × World}
  {world : World} {iterator : Address} {item : Value} {items : List Value}

/-! ### Steps of native iterators -/

namespace Operation

theorem gives_advance_nil (hiterator : world.heap.get? iterator = some (.iterator [])) :
    (advance (.iterator iterator)).Gives settings respond world [] (.exhausted none) world :=
  (Program.gives_effect (Effect.answer_takeItem_nil hiterator)).bind (Program.gives_done _ _)

theorem gives_advance_cons
    (hiterator : world.heap.get? iterator = some (.iterator (item :: items))) :
    (advance (.iterator iterator)).Gives settings respond world [] (.produced item)
      (world.mapHeap (·.advance iterator items)) :=
  (Program.gives_effect (Effect.answer_takeItem_cons hiterator)).bind (Program.gives_done _ _)

theorem gives_collect_iterator (hiterator : world.heap.get? iterator = some (.iterator items)) :
    (collect (.iterator iterator)).Gives settings respond world [] items
      (world.mapHeap (·.advance iterator [])) :=
  Program.gives_effect (Effect.answer_takeAll hiterator)

end Operation

/-! ### Calls -/

/-- The call of `next` on a value. -/
def nextOf (iterator : Value) : Program Value :=
  Call.dispatch (.builtin (.function .next)) (.ofList [iterator])

/-- The call of `next` on a value with a default. -/
def nextOr (iterator default : Value) : Program Value :=
  Call.dispatch (.builtin (.function .next)) (.ofList [iterator, default])

/-- The call of `list` on a value. -/
def listOf (iterable : Value) : Program Value :=
  Call.dispatch (.builtin (.type .list)) (.ofList [iterable])

/-- The call of `tuple` on a value. -/
def tupleOf (iterable : Value) : Program Value :=
  Call.dispatch (.builtin (.type .tuple)) (.ofList [iterable])

/-- The call of `len` on a value. -/
def lengthOf (container : Value) : Program Value :=
  Call.dispatch (.builtin (.function .len)) (.ofList [container])

/-! ### Handing out -/

theorem gives_nextOf_cons
    (hiterator : world.heap.get? iterator = some (.iterator (item :: items))) :
    (nextOf (.iterator iterator)).Gives settings respond world [] item
      (world.mapHeap (·.advance iterator items)) :=
  (Program.leads_heap _ world).gives
    ((Operation.gives_advance_cons hiterator).bind (Program.gives_done _ _))

theorem stops_nextOf (hiterator : world.heap.get? iterator = some (.iterator [])) :
    (nextOf (.iterator iterator)).Stops settings respond world [] (.raised .stopIteration) world :=
  (Program.leads_heap _ world).stops
    ((Operation.gives_advance_nil hiterator).bind_stops (Program.stops_raise _ _))

theorem gives_nextOr_cons
    (hiterator : world.heap.get? iterator = some (.iterator (item :: items))) (default : Value) :
    (nextOr (.iterator iterator) default).Gives settings respond world [] item
      (world.mapHeap (·.advance iterator items)) :=
  (Program.leads_heap _ world).gives
    ((Operation.gives_advance_cons hiterator).bind (Program.gives_done _ _))

theorem gives_nextOr_nil (hiterator : world.heap.get? iterator = some (.iterator []))
    (default : Value) :
    (nextOr (.iterator iterator) default).Gives settings respond world [] default world :=
  (Program.leads_heap _ world).gives
    ((Operation.gives_advance_nil hiterator).bind (Program.gives_done _ _))

section

variable {iterable : Value} {asked : List Moment} {middle : World}

/-- A call of `list` gives a new list of the items that are collected. -/
theorem gives_listOf
    (hcollect : (Operation.collect iterable).Gives settings respond world asked items middle) :
    (listOf iterable).Gives settings respond world (asked ++ []) (.list middle.heap.size)
      (middle.mapHeap (·.allocate (.list items))) :=
  (Program.leads_heap _ world).gives ((Program.leads_heap _ world).gives
    (hcollect.bind ⟨rfl, rfl⟩))

/-- A call of `tuple` gives a tuple of the items that are collected. -/
theorem gives_tupleOf
    (hcollect : (Operation.collect iterable).Gives settings respond world asked items middle) :
    (tupleOf iterable).Gives settings respond world (asked ++ []) (.tuple items) middle :=
  (Program.leads_heap _ world).gives ((Program.leads_heap _ world).gives
    (hcollect.bind (Program.gives_done _ _)))

theorem stops_listOf {cut : Cut}
    (hcollect : (Operation.collect iterable).Stops settings respond world asked cut middle) :
    (listOf iterable).Stops settings respond world asked cut middle :=
  (Program.leads_heap _ world).stops ((Program.leads_heap _ world).stops (hcollect.bind _))

end

end

/-! ### What calls on an iterator hand out -/

/-- Whether a program of a session hands out some items of an iterator, leaves others in it, and
ends so. -/
structure Program.Hands (settings : Settings) (patience : Nat) (iterator : Address) {Result : Type}
    (program : Program Result) (world : World) (handed left : List Value)
    (ending : Ending Result) : Prop where
  handed : handedOut settings iterator (program.history settings (Request.answer settings patience)
    (Request.opening (Request.history settings patience)) world) = handed
  left : (program.run settings (Request.answer settings patience) world).2.heap.get? iterator =
    some (.iterator left)
  ending : (program.run settings (Request.answer settings patience) world).1 = ending

/-- What a program hands out can be read off what it leaves. -/
theorem Program.hands_of_run {settings : Settings} {patience : Nat} {iterator : Address}
    {Result : Type} {program : Program Result} {world final : World} {handed left : List Value}
    {ending : Ending Result}
    (hiterator : world.heap.get? iterator = some (.iterator (handed ++ left)))
    (hrun : program.run settings (Request.answer settings patience) world = (ending, final))
    (hleft : final.heap.get? iterator = some (.iterator left)) :
    program.Hands settings patience iterator world handed left ending := by
  have hlinked := Program.linked_history settings
    (fun request world ↦ (Linked.singleton ⟨.asks request, world, world⟩ rfl).append
      (request.linked_history settings patience world)) program world
  -- What is handed out is not computed: it is what is missing from the items afterwards.
  obtain ⟨remaining, hremaining, hhanded⟩ := hlinked.exists_left hiterator
  rw [hrun, hleft] at hremaining
  obtain rfl := Object.iterator.inj (Option.some.inj hremaining)
  exact ⟨List.append_cancel_right hhanded, by rw [hrun, hleft], by rw [hrun]⟩

/-- What the calls on an iterator with given items left do, in a run of a session. -/
structure IteratorCalls (settings : Settings) (patience : Nat) (iterator : Address)
    (items : List Value) (world : World) : Prop where
  /-- `next` hands out the first item; without one it raises `StopIteration`. -/
  next : (nextOf (.iterator iterator)).Hands settings patience iterator world (items.take 1)
    (items.drop 1) (items.head?.elim (.raised .stopIteration) .value)
  /-- With a default `next` hands out the first item, and without one it gives the default. -/
  nextOr (default : Value) : (nextOr (.iterator iterator) default).Hands settings patience iterator
    world (items.take 1) (items.drop 1) (.value (items.headD default))
  /-- `list` hands out all items, in a new list. -/
  list : (listOf (.iterator iterator)).Hands settings patience iterator world items []
    (.value (.list world.heap.size))
  listed : ((listOf (.iterator iterator)).run settings (Request.answer settings patience)
    world).2.heap.get? world.heap.size = some (.list items)
  /-- `tuple` hands out all items. -/
  tuple : (tupleOf (.iterator iterator)).Hands settings patience iterator world items []
    (.value (.tuple items))
  /-- `iter` gives the iterator itself. -/
  iter : (Operation.iterate (.iterator iterator)).Hands settings patience iterator world [] items
    (.value (.iterator iterator))

theorem iteratorCalls {settings : Settings} {iterator : Address} {items : List Value}
    {world : World} (hiterator : world.heap.get? iterator = some (.iterator items))
    (patience : Nat) : IteratorCalls settings patience iterator items world := by
  have hcollect : (Operation.collect (.iterator iterator)).Gives settings
      (Request.answer settings patience) world [] items
      (world.mapHeap (·.advance iterator [])) := Operation.gives_collect_iterator hiterator
  have hemptied := Heap.get?_advance hiterator []
  have hsize : (world.heap.advance iterator []).size = world.heap.size := by
    rw [Heap.advance, hiterator, Heap.size_replace]
  have hall : world.heap.get? iterator = some (.iterator (items ++ [])) := by
    rwa [List.append_nil]
  have hsplit : world.heap.get? iterator = some (.iterator (items.take 1 ++ items.drop 1)) := by
    rwa [List.take_append_drop]
  have hlisted := (gives_listOf hcollect).run
  have hfresh : (world.mapHeap (·.advance iterator [])).heap.size = world.heap.size := hsize
  rw [hfresh] at hlisted
  exact {
    next := by
      cases items with
      | nil => exact Program.hands_of_run hsplit (stops_nextOf hiterator).run hiterator
      | cons item rest =>
        exact Program.hands_of_run hsplit (gives_nextOf_cons hiterator).run
          (Heap.get?_advance hiterator rest)
    nextOr := fun default ↦ by
      cases items with
      | nil => exact Program.hands_of_run hsplit (gives_nextOr_nil hiterator default).run hiterator
      | cons item rest =>
        exact Program.hands_of_run hsplit (gives_nextOr_cons hiterator default).run
          (Heap.get?_advance hiterator rest)
    list := Program.hands_of_run hall hlisted (Heap.extends_allocate _ _ _ _ hemptied)
    listed := by
      rw [hlisted]
      exact (Heap.get?_allocate _ _ _).trans (if_pos hsize.symm)
    tuple := Program.hands_of_run hall (gives_tupleOf hcollect).run hemptied
    iter := @Program.hands_of_run _ _ _ _ _ _ _ [] _ _ hiterator rfl hiterator }

/-! ### Native containers -/

/-- The items of a native container: those of a tuple or a list, the keys of a dict in order, the
characters of a text as texts of one character, and the bytes as integers. -/
inductive NativeItems (heap : Heap) : Value → List Value → Prop
  | tuple (items : List Value) : NativeItems heap (.tuple items) items
  | list {address : Address} {items : List Value}
      (hlist : heap.get? address = some (.list items)) : NativeItems heap (.list address) items
  | dict {address : Address} {entries : Entries Value}
      (hdict : heap.get? address = some (.dict entries)) :
      NativeItems heap (.dict address) (entries.toList.map fun pair ↦ .text pair.1)
  | text (content : String) : NativeItems heap (.text content)
      (content.toList.map fun character ↦ .text (String.singleton character))
  | bytes (content : List UInt8) : NativeItems heap (.bytes content)
      (content.map fun byte ↦ .ofNat byte.toNat)

namespace NativeItems

variable {heap : Heap} {container : Value} {items : List Value}

theorem nativeItems?_eq (hitems : NativeItems heap container items) :
    Operation.nativeItems? heap container = some items := by
  cases hitems with
  | tuple | text | bytes => rfl
  | list hlist => rw [Operation.nativeItems?, Heap.items, Heap.list?_eq_some_iff.mpr hlist]; rfl
  | dict hdict =>
    rw [Operation.nativeItems?, Heap.entries, Heap.dict?_eq_some_iff.mpr hdict]
    simp only [Option.getD_some, Entries.keys, List.map_map, Function.comp_def]

theorem nativeLength?_eq (hitems : NativeItems heap container items) :
    Operation.nativeLength? heap container = some items.length := by
  cases hitems with
  | tuple => rfl
  | text content =>
    simp only [Operation.nativeLength?, List.length_map, String.length_toList]
  | bytes content => simp [Operation.nativeLength?]
  | list hlist => rw [Operation.nativeLength?, Heap.items, Heap.list?_eq_some_iff.mpr hlist]; rfl
  | dict hdict =>
    rw [Operation.nativeLength?, Heap.entries, Heap.dict?_eq_some_iff.mpr hdict]
    simp [Entries.size]

end NativeItems

section

variable {settings : Settings}
  {respond : {Answer : Type} → Request Answer → World → Ending Answer × World}
  {world : World} {container : Value} {items : List Value}

/-- The world with one more iterator. -/
def World.withIterator (world : World) (items : List Value) : World :=
  world.mapHeap (·.allocate (.iterator items))

theorem World.get?_withIterator (world : World) (items : List Value) :
    (world.withIterator items).heap.get? world.heap.size = some (.iterator items) :=
  (Heap.get?_allocate _ _ _).trans (if_pos rfl)

/-- A native container gives a new iterator over the items that it has at this moment. -/
theorem Operation.gives_iterate (hitems : NativeItems world.heap container items) :
    (iterate container).Gives settings respond world [] (.iterator world.heap.size)
      (world.withIterator items) := by
  have hnative := hitems.nativeItems?_eq
  cases hitems with
  | tuple | list | dict | text | bytes =>
    refine (Program.leads_heap _ world).gives ?_
    rw [hnative]
    exact ⟨rfl, rfl⟩

/-- Taking all items of a new iterator leaves every object as it was. -/
theorem World.extends_drained (world : World) (items : List Value) :
    world.heap.Extends ((world.withIterator items).heap.advance world.heap.size []) := by
  intro address object hobject
  have hother : world.heap.size ≠ address := (Nat.ne_of_lt (Heap.lt_size_of_get? hobject)).symm
  rw [Heap.advance, world.get?_withIterator items, Heap.get?_replace, if_neg hother]
  exact world.heap.extends_allocate _ address object hobject

/-- All items of a native container are collected, with or without an iterator. -/
theorem Operation.exists_gives_collect (hitems : NativeItems world.heap container items) :
    ∃ middle, (collect container).Gives settings respond world [] items middle ∧
      world.heap.Extends middle.heap := by
  have hdrained := world.extends_drained items
  have hiterate : (iterate container).Gives settings respond world [] _ _ :=
    gives_iterate hitems
  have htaken : (Program.effect (.takeAll world.heap.size)).Gives settings respond
      (world.withIterator items) [] items _ :=
    Program.gives_effect (Effect.answer_takeAll (world.get?_withIterator items))
  cases hitems with
  | tuple => exact ⟨world, Program.gives_done _ _, .refl _⟩
  | list hlist =>
    refine ⟨world, (Program.leads_heap _ world).gives ?_, .refl _⟩
    rw [Heap.items, Heap.list?_eq_some_iff.mpr hlist]
    exact Program.gives_done _ _
  | dict | text | bytes => exact ⟨_, hiterate.bind htaken, hdrained⟩

/-- The length of a native container is the number of its items. -/
theorem gives_lengthOf (hitems : NativeItems world.heap container items) :
    (lengthOf container).Gives settings respond world [] (.ofNat items.length) world := by
  have hlength : (Operation.length container).Gives settings respond world [] items.length
      world := by
    refine (Program.leads_heap _ world).gives ?_
    rw [hitems.nativeLength?_eq]
    exact Program.gives_done _ _
  exact (Program.leads_heap _ world).gives (hlength.bind (Program.gives_done _ _))

end

/-! ### Draining -/

namespace Request

section

variable {settings : Settings} {patience : Nat} {iterator item : Value} {world middle : World}

/-- Draining goes on after an item. -/
theorem answer_drain_produced
    (hadvance : (Operation.advance iterator).run settings (Request.answer settings patience) world =
      (.value (.produced item), middle)) :
    (Request.drain iterator).answer settings (patience + 1) world =
      Ending.andThen ((Request.drain iterator).answer settings patience middle)
        fun items world ↦ (.value (item :: items), world) := by
  rw [answer, hadvance]
  rfl

/-- Draining ends with exhaustion. -/
theorem answer_drain_exhausted {signal : Option Exception}
    (hadvance : (Operation.advance iterator).run settings (Request.answer settings patience) world =
      (.value (.exhausted signal), middle)) :
    (Request.drain iterator).answer settings (patience + 1) world = (.value [], middle) := by
  rw [answer, hadvance]
  rfl

/-- A step that is cut cuts the draining. -/
theorem answer_drain_cut {cut : Cut}
    (hadvance : (Operation.advance iterator).run settings (Request.answer settings patience) world =
      (cut.ending, middle)) :
    (Request.drain iterator).answer settings (patience + 1) world = (cut.ending, middle) := by
  rw [answer, hadvance]
  exact cut.andThen_ending _ _

end

/-- An iterator is drained if the patience exceeds the number of its items. -/
theorem exists_drained {settings : Settings} {iterator : Address} {items : List Value}
    {world : World} {patience : Nat} (hpatience : items.length < patience)
    (hiterator : world.heap.get? iterator = some (.iterator items)) :
    ∃ final, (Request.drain (.iterator iterator)).answer settings patience world =
      (.value items, final) := by
  induction patience generalizing items world with
  | zero => exact absurd hpatience (Nat.not_lt_zero _)
  | succ patience ih =>
    cases items with
    | nil => exact ⟨world, answer_drain_exhausted (Operation.gives_advance_nil hiterator).run⟩
    | cons item rest =>
      have hleft : (world.mapHeap (·.advance iterator rest)).heap.get? iterator =
          some (.iterator rest) := Heap.get?_advance hiterator rest
      obtain ⟨final, hrest⟩ := ih (Nat.lt_of_succ_lt_succ hpatience) hleft
      refine ⟨final, ?_⟩
      rw [answer_drain_produced (Operation.gives_advance_cons hiterator).run, hrest]
      rfl

end Request

/-! ### Native containers in use -/

/-- Draining an iterator over a value, item by item. -/
def drained (iterable : Value) : Program (List Value) := do
  let iterator ← Operation.iterate iterable
  Program.request (.drain iterator)

/-- What is done with a native container that has given items, in a run of a session. -/
structure ContainerCalls (settings : Settings) (patience : Nat) (container : Value)
    (items : List Value) (world : World) : Prop where
  /-- A new iterator has the items. -/
  iter : (Operation.iterate container).run settings (Request.answer settings patience) world =
    (.value (.iterator world.heap.size), world.withIterator items)
  /-- A new list has the items. -/
  list : ∃ address final,
    (listOf container).run settings (Request.answer settings patience) world =
        (.value (.list address), final) ∧
      world.heap.get? address = none ∧ final.heap.get? address = some (.list items)
  /-- A tuple has the items. -/
  tuple : ((tupleOf container).run settings (Request.answer settings patience) world).1 =
    .value (.tuple items)
  /-- An iterator gives the items one by one, unless the patience ends before. -/
  drained (hpatience : items.length < patience) :
    ((drained container).run settings (Request.answer settings patience) world).1 = .value items
  /-- The length is the number of the items. -/
  length : ((lengthOf container).run settings (Request.answer settings patience) world).1 =
    .value (.ofNat items.length)
  /-- So is the length of a new list. -/
  lengthListed : ((listOf container >>= lengthOf).run settings (Request.answer settings patience)
    world).1 = .value (.ofNat items.length)

theorem containerCalls {settings : Settings} {container : Value} {items : List Value}
    {world : World} (hitems : NativeItems world.heap container items) (patience : Nat) :
    ContainerCalls settings patience container items world := by
  let respond {Answer : Type} : Request Answer → World → Ending Answer × World :=
    Request.answer settings patience
  obtain ⟨middle, hcollect, hextends⟩ : ∃ middle, (Operation.collect container).Gives settings
      respond world [] items middle ∧ world.heap.Extends middle.heap :=
    Operation.exists_gives_collect hitems
  have hiterate : (Operation.iterate container).Gives settings respond world [] _ _ :=
    Operation.gives_iterate hitems
  have hlist := gives_listOf hcollect
  have hlisted : (middle.mapHeap (·.allocate (.list items))).heap.get? middle.heap.size =
      some (.list items) := (Heap.get?_allocate _ _ _).trans (if_pos rfl)
  have hfresh : world.heap.get? middle.heap.size = none := by
    cases hused : world.heap.get? middle.heap.size with
    | none => rfl
    | some object =>
      exact absurd (Heap.lt_size_of_get? (hextends _ _ hused)) (Nat.lt_irrefl _)
  exact {
    iter := hiterate.run
    list := ⟨_, _, hlist.run, hfresh, hlisted⟩
    tuple := congrArg Prod.fst (gives_tupleOf hcollect).run
    drained := fun hpatience ↦ by
      obtain ⟨final, hdrained⟩ := Request.exists_drained hpatience (world.get?_withIterator items)
      exact congrArg Prod.fst (hiterate.bind (Program.gives_request hdrained)).run
    length := congrArg Prod.fst (gives_lengthOf hitems).run
    lengthListed := congrArg Prod.fst (hlist.bind (gives_lengthOf (.list hlisted))).run }

end Metaobject
