import Metaobject.Proofs.Heap.Integers
import Metaobject.Proofs.Run.Reachable

/-!
# Integers in reachable worlds

Whatever operation an integer comes from, it is in its one form (`Session.integers_canonical`): in
the objects of every reachable world, as the value of every step and as the value of every call.
Truth, conversion to a word and equality are therefore matters of the integer alone.
-/

set_option autoImplicit false
set_option relaxedAutoImplicit false

namespace Metaobject.Session

/-- Integers over whole runs, for every script. In every reachable world all values in objects are
canonical, and so is what any call gives there, be it of a builtin or of user code, with any
patience; the calls that are made in runs are of values that the heap holds. The values of steps are
canonical. A canonical integer is long exactly if it fits no word; its truth is that it is not zero;
it is given as a word exactly if it fits one; it is equal to another one, or to a truth value,
exactly if they are the same integer; and two of them that are the same integer are the same value
unless one is a truth value. -/
theorem integers_canonical (configuration : Configuration) :
    (∀ world, Reaches configuration world →
      (∀ address object, world.heap.get? address = some object →
        ∀ value ∈ object.values, value.Canonical) ∧
      ∀ callable arguments, world.heap.Holds callable → arguments.Held world.heap →
        ∀ patience value,
          ((Request.call callable arguments).answer (start configuration).settings patience
            world).1 = .value value → value.Canonical) ∧
    (∀ moment callable arguments, Passes configuration moment →
      moment.action = .asks (.call callable arguments) →
        moment.before.heap.Holds callable ∧ arguments.Held moment.before.heap) ∧
    (∀ session patience statement value, Rests configuration session →
      (session.stepWithin patience statement).1 = .value value → value.Canonical) ∧
    ∀ (value : Value) (integer : Int) (heap : Heap), value.Canonical →
      value.integer? = some integer →
        (value = .long integer ↔
          ¬(-0x8000000000000000 ≤ integer ∧ integer < 0x8000000000000000)) ∧
        heap.isTrue value = decide (integer ≠ 0) ∧
        value.word? = (if -0x8000000000000000 ≤ integer ∧ integer < 0x8000000000000000
          then some integer else none) ∧
        ∀ (other : Value) (otherInteger : Int), other.Canonical →
          other.integer? = some otherInteger →
            heap.equal value other = decide (integer = otherInteger) ∧
            (integer = otherInteger → (∀ truth, value ≠ .bool truth ∧ other ≠ .bool truth) →
              value = other) := by
  refine ⟨fun world hreaches ↦ ⟨fun address object hobject ↦
    hreaches.wellFormed.canonical hobject, ?_⟩, ?_, ?_, ?_⟩
  · intro callable arguments hcallable harguments patience value hvalue
    obtain ⟨-, hyields⟩ := Request.answer_sound (start configuration).settings patience
      (.call callable arguments) world hreaches.wellFormed hreaches.settings_held
      ⟨hcallable, harguments⟩
    exact Heap.Holds.canonical (hyields value hvalue)
  · intro moment callable arguments hpasses hasks
    obtain ⟨heap, -, hsound⟩ := hpasses.sound
    exact hsound.admissible (.call callable arguments) hasks
  · intro session patience statement value hrests hvalue
    have hsound := hrests.sound
    obtain ⟨-, hyields⟩ := (Script.safe_runStep hsound.formed hsound.frame statement).run
      (Request.answer_sound session.settings patience) hsound.formed hsound.settings
    exact Heap.Holds.canonical (hyields value hvalue)
  · intro value integer heap hcanonical hinteger
    refine ⟨?_, hcanonical.isTrue_eq hinteger heap, Value.word?_eq hinteger,
      fun other otherInteger hother hotherInteger ↦
        ⟨Heap.equal_eq_of_integer? hinteger hotherInteger, ?_⟩⟩
    · rw [hcanonical.eq_long_iff hinteger, ← Value.fitsWord_iff, Bool.not_eq_true]
    · rintro rfl hplain
      exact hcanonical.eq_of_integer? hother hinteger hotherInteger
        (fun truth ↦ (hplain truth).1) fun truth ↦ (hplain truth).2

/-! ### The absolute value that leaves the range of words -/

namespace Extreme

open Script

/-- The absolute value of the least word. -/
def statement : Statement :=
  .evaluate (.callBuiltin "abs" [.literal (.int (-0x8000000000000000))] .absent)

/-- How the statement ends. -/
def ending : Ending Value := ((start .scripted).stepWithin 2 statement).1

end Extreme

/-- The absolute value of the least word is long, true and no word. -/
theorem integers_canonical_extreme :
    ∃ value, Extreme.ending = .value value ∧ value = .long 0x8000000000000000 ∧
      Heap.empty.isTrue value = true ∧ value.word? = none := by
  have hlong : Value.ofInt 0x8000000000000000 = .long 0x8000000000000000 := if_neg (by decide)
  have hending : Extreme.ending = .value (.long 0x8000000000000000) := hlong ▸ rfl
  obtain ⟨-, -, hsteps, hintegers⟩ := integers_canonical .scripted
  have hcanonical := hsteps _ 2 Extreme.statement _ .start hending
  obtain ⟨-, htrue, hword, -⟩ := hintegers _ _ Heap.empty hcanonical rfl
  exact ⟨_, hending, rfl, htrue.trans (by decide), hword.trans (by decide)⟩

end Metaobject.Session
