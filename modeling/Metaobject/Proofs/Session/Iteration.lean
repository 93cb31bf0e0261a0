import Metaobject.Proofs.Builtin.UserIterators
import Metaobject.Proofs.Session.CallDepth

/-!
# Iteration in sessions

Iteration loses and repeats nothing (`Session.iteration_lossless`). Whatever happens in a session
after an iterator is made, what the iterator hands out is a beginning of the items that it was made
with, in order (`Session.exists_handedOut`).
-/

set_option autoImplicit false
set_option relaxedAutoImplicit false

namespace Metaobject

/-- A part of moments that lead from one world to another leads on from where it starts. -/
theorem Linked.of_append {settings : Settings} {world final : World} {first second : List Moment}
    (hlinked : Linked settings world (first ++ second) final) :
    ∃ middle, Linked settings world first middle ∧ Linked settings middle second final := by
  induction first generalizing world with
  | nil => exact ⟨world, .nil world, hlinked⟩
  | cons moment rest ih =>
    cases hlinked with
    | cons _ hstep hrest =>
      obtain ⟨middle, hfirst, hsecond⟩ := ih hrest
      exact ⟨middle, .cons moment hstep hfirst, hsecond⟩

namespace Session

/-- What an iterator hands out in a session after it is made is a beginning of its items, and what
it hands out from then on goes on from there. -/
theorem exists_handedOut {session : Session} {patience : Nat} {statements : List Script.Statement}
    {earlier now later : List Moment} {moment : Moment} {items : List Value}
    (hhistory : session.historyOf patience statements = earlier ++ moment :: (now ++ later))
    (hmade : moment.action = .performs (.newIterator items)) :
    ∃ left, handedOut session.settings moment.before.heap.size now ++ left = items ∧
      handedOut session.settings moment.before.heap.size later <+: left := by
  have hlinked := session.linked_historyOf patience statements
  rw [hhistory] at hlinked
  obtain ⟨reached, -, hlinked⟩ := hlinked.of_append
  cases hlinked with
  | cons _ hstep hlinked =>
    have hiterator : moment.after.heap.get? moment.before.heap.size =
        some (.iterator items) := by
      rw [Moment.IsStep, hmade] at hstep
      rw [hstep]
      exact (Heap.get?_allocate _ _ _).trans (if_pos rfl)
    obtain ⟨middle, hnow, hlater⟩ := hlinked.of_append
    obtain ⟨left, hleft, hhanded⟩ := hnow.exists_left hiterator
    obtain ⟨last, -, hrest⟩ := hlater.exists_left hleft
    exact ⟨left, hhanded, last, hrest⟩

/-- Iteration loses and repeats nothing. Over all moments that lead from one world to another, what
a native iterator hands out, followed by what is left in it, is what was left in it at the start; so
from its making on, a session gets a beginning of its items. The calls on an iterator hand out what
they give, and on native containers all ways of iterating give the same items. A user iterator is
asked for its items until `__next__` fails, once more than there are items. -/
theorem iteration_lossless :
    (∀ (settings : Settings) (world final : World) (moments : List Moment) (iterator : Address)
      (items : List Value), Linked settings world moments final →
        world.heap.get? iterator = some (.iterator items) →
        ∃ left, final.heap.get? iterator = some (.iterator left) ∧
          handedOut settings iterator moments ++ left = items) ∧
    (∀ (session : Session) (patience : Nat) (statements : List Script.Statement)
      (earlier now later : List Moment) (moment : Moment) (items : List Value),
        session.historyOf patience statements = earlier ++ moment :: (now ++ later) →
        moment.action = .performs (.newIterator items) →
        ∃ left, handedOut session.settings moment.before.heap.size now ++ left = items ∧
          handedOut session.settings moment.before.heap.size later <+: left) ∧
    (∀ (settings : Settings) (patience : Nat) (iterator : Address) (items : List Value)
      (world : World), world.heap.get? iterator = some (.iterator items) →
        IteratorCalls settings patience iterator items world) ∧
    (∀ (settings : Settings) (patience : Nat) (container : Value) (items : List Value)
      (world : World), NativeItems world.heap container items →
        ContainerCalls settings patience container items world) ∧
    ∀ (settings : Settings) (patience more : Nat) (iterator method : Value)
      (world middle final : World) (items : List Value) (calls : List Moment) (cut : Cut),
        world.heap.lookup "__iter__" (world.heap.typeOf iterator) = some method →
        (methodCall method iterator).answer settings patience world = (.value iterator, middle) →
        NextCalls settings patience iterator middle items calls cut final →
        cut ≠ .exhausted → patience + items.length < more →
        UserListing settings more iterator method world middle items calls cut final :=
  ⟨fun _ _ _ _ _ _ hlinked hiterator ↦ hlinked.exists_left hiterator,
    fun _ _ _ _ _ _ _ _ hhistory hmade ↦ exists_handedOut hhistory hmade,
    fun _ patience _ _ _ hiterator ↦ iteratorCalls hiterator patience,
    fun _ patience _ _ _ hitems ↦ containerCalls hitems patience,
    fun _ _ _ _ _ _ _ _ _ _ _ hmethod hself hcalls hends hmore ↦
      hcalls.userListing hmethod hself hends hmore⟩

/-! ### A user iterator over a list -/

namespace Iterating

open Script

/-- An iterator `source` over a list of two items, and an object `user` that is its own iterator
and takes its items from there. -/
def statements : List Statement :=
  [.assign .globals "source" (.probe (.runtime .iterate)
      [.list [.literal (.int 1), .literal (.int 2)]]),
    .assign .globals "user" (.call (creation type "User" []
      [method "__iter__" ["self"] [.result (.variable "self")],
        method "__next__" ["self"] [.result (.callBuiltin "next" [.variable "source"] .absent)]])
      [] .absent)]

/-- The session after the statements. -/
def session : Session := (start .scripted).after 4 statements

/-- The call of `list` on the object. -/
def listing : Statement :=
  .evaluate (.call (.literal (.nativeType .list)) [.variable "user"] .absent)

/-- The two items. -/
def items : List Value := [.int 1, .int 2]

/-- A call of one of the two methods of the object. -/
def call (method : Address) (world : World) : Ending Value × World :=
  (methodCall (.function method) (.object 11)).answer session.settings 4 world

/-- The world in which the object has given itself as its iterator. -/
def middle : World := (call 4 session.world).2

/-- The world after the first item. -/
def first : World := (call 6 middle).2

/-- The world after the second item. -/
def second : World := (call 6 first).2

/-- The world after the end of the items. -/
def final : World := (call 6 second).2

theorem nextCalls : NextCalls session.settings 4 (.object 11) middle items
    [(methodCall (.function 6) (.object 11)).answered middle first,
      (methodCall (.function 6) (.object 11)).answered first second,
      (methodCall (.function 6) (.object 11)).answered second final]
    (.raised .stopIteration) final := by
  have hfirst : (call 6 middle).1 = .value (.int 1) := by with_unfolding_all rfl
  have hsecond : (call 6 first).1 = .value (.int 2) := by with_unfolding_all rfl
  have hlast : (call 6 second).1 = .raised .stopIteration := by with_unfolding_all rfl
  refine .item ?_ (Prod.ext hfirst rfl) (.item ?_ (Prod.ext hsecond rfl)
    (.last ?_ (Prod.ext hlast rfl))) <;> with_unfolding_all rfl

end Iterating

/-- The list of the source is iterated without loss: by the source itself, and by the object. -/
theorem iteration_lossless_user :
    handedOut Iterating.session.settings 2 (Iterating.session.historyOf 6 [Iterating.listing]) =
        Iterating.items ∧
      (∃ earlier moment later left, (start .scripted).historyOf 4
          Iterating.statements = earlier ++ moment :: (later ++ []) ∧
        handedOut (start .scripted).settings moment.before.heap.size later ++ left =
          Iterating.items) ∧
      IteratorCalls Iterating.session.settings 4 2 Iterating.items Iterating.session.world ∧
      ContainerCalls Iterating.session.settings 4 (.list 1) Iterating.items
        Iterating.session.world ∧
      ∃ calls, UserListing Iterating.session.settings 7 (.object 11) (.function 4)
        Iterating.session.world Iterating.middle Iterating.items calls (.raised .stopIteration)
        Iterating.final := by
  obtain ⟨hlossless, hmade, hiterators, hcontainers, husers⟩ := iteration_lossless
  have hsource : Iterating.session.world.heap.get? 2 = some (.iterator Iterating.items) := by
    with_unfolding_all rfl
  have hlist : Iterating.session.world.heap.get? 1 = some (.list Iterating.items) := by
    with_unfolding_all rfl
  refine ⟨?_, ?_, hiterators _ 4 2 _ _ hsource, hcontainers _ 4 _ _ _ (.list hlist), _,
    husers _ 4 7 _ _ _ _ _ _ _ _ ?_ ?_ Iterating.nextCalls ?_ ?_⟩
  · obtain ⟨left, hleft, hhanded⟩ := hlossless _ _ _ _ 2 _
      (Iterating.session.linked_historyOf 6 [Iterating.listing]) hsource
    have hnone : ((Iterating.session.after 6 [Iterating.listing]).world.heap.remaining 2).length =
        0 := by decide +kernel
    rw [Heap.remaining_of_get? hleft] at hnone
    rwa [List.eq_nil_of_length_eq_zero hnone, List.append_nil] at hhanded
  · have haction : ((start .scripted).historyOf 4 Iterating.statements)[2]?.map
        Moment.action = some (.performs (.newIterator Iterating.items)) := by
      with_unfolding_all rfl
    obtain ⟨moment, hmoment, haction⟩ := Option.map_eq_some_iff.mp haction
    obtain ⟨earlier, later, hsplit⟩ := List.append_of_mem (List.mem_of_getElem? hmoment)
    rw [← List.append_nil later] at hsplit
    obtain ⟨left, hhanded, -⟩ := hmade _ 4 _ _ _ _ _ _ hsplit haction
    exact ⟨earlier, moment, later, left, hsplit, hhanded⟩
  · with_unfolding_all rfl
  · exact Prod.ext (by with_unfolding_all rfl) rfl
  · exact fun hsame ↦ nomatch hsame
  · decide

end Session

end Metaobject
