import Metaobject.Operation.Iteration
import Metaobject.Operation.Number
import Metaobject.Operation.Text
import Metaobject.Proofs.Run.Safety

/-!
# Operations are safe

The operations on values are safe on held values: capabilities (`Capability.safe_invoke?`), numbers,
conversion to text, length and iteration. Whatever they give is held again.
-/

set_option autoImplicit false
set_option relaxedAutoImplicit false

namespace Metaobject

variable {heap : Heap}

/-! ### Capabilities -/

theorem Capability.safe_invoke? (hformed : heap.WellFormed) {receiver : Value} (name : String)
    {arguments : List Value} {keywords : Option Address} (hreceiver : heap.Holds receiver)
    (harguments : heap.HoldsAll arguments)
    (hkeywords : ∀ address ∈ keywords, heap.Holds (.dict address)) :
    (Capability.invoke? receiver name arguments keywords).Safe heap
      fun newer answer ↦ newer.HoldsAll answer := by
  refine .heap_bind ?_
  split
  · exact .pure heap.holdsAll_none
  · rename_i method hmethod
    have hcall := Program.Safe.call (hformed.lookup hmethod)
      (Arguments.held_of (harguments.cons hreceiver) hkeywords)
    exact .bind hformed hcall fun newer answer _ hanswer ↦ .pure (Heap.holdsAll_some hanswer)

theorem Capability.safe_invoke (hformed : heap.WellFormed) {receiver : Value} (name : String)
    {arguments : List Value} (hreceiver : heap.Holds receiver)
    (harguments : heap.HoldsAll arguments) (missing : Heap → Exception) :
    (Capability.invoke receiver name arguments missing).Safe heap Heap.Holds := by
  refine .bind hformed (safe_invoke? hformed name hreceiver harguments (by simp))
    fun newer answer _ hanswer ↦ ?_
  cases answer with
  | some result => exact .pure (hanswer result rfl)
  | none => exact .heap_bind trivial

namespace Operation

variable {value : Value}

/-! ### Numbers -/

theorem safe_absolute (hformed : heap.WellFormed) (hvalue : heap.Holds value) :
    (absolute value).Safe heap Heap.Holds := by
  unfold absolute
  split
  · rename_i result hresult
    refine .pure ?_
    unfold nativeAbsolute? at hresult
    split at hresult
    · exact Option.some.inj hresult ▸ .float _
    · obtain ⟨integer, -, rfl⟩ := Option.map_eq_some_iff.mp hresult
      exact heap.holds_ofInt _
  · exact Capability.safe_invoke hformed "__abs__" hvalue heap.holdsAll_nil _

theorem safe_powerOfDoubles (heap : Heap) (base exponent : Float) :
    (powerOfDoubles base exponent).Safe heap Heap.Holds :=
  .ofExcept_map .float

theorem safe_powerOfIntegers (heap : Heap) (base exponent : Int) :
    (powerOfIntegers base exponent).Safe heap Heap.Holds := by
  unfold powerOfIntegers
  split
  · exact safe_powerOfDoubles heap _ _
  · split
    · exact .pure (heap.holds_ofInt _)
    · split
      · trivial
      · exact .effect_bind trivial fun newer _ _ _ ↦ .pure (newer.holds_ofInt _)

theorem safe_nativePower {base exponent : Value} {program : Program Value}
    (hprogram : nativePower? base exponent = some program) : program.Safe heap Heap.Holds := by
  unfold nativePower? at hprogram
  split at hprogram
  · exact Option.some.inj hprogram ▸ safe_powerOfIntegers heap _ _
  · split at hprogram
    · exact Option.some.inj hprogram ▸ safe_powerOfDoubles heap _ _
    · cases hprogram

theorem safe_nativeModularPower {base exponent modulus : Value} {program : Program Value}
    (hprogram : nativeModularPower? base exponent modulus = some program) :
    program.Safe heap Heap.Holds := by
  unfold nativeModularPower? at hprogram
  split at hprogram
  · exact Option.some.inj hprogram ▸ .ofExcept_map heap.holds_ofInt
  · split at hprogram
    · cases hprogram
      trivial
    · cases hprogram

theorem safe_userPower (hformed : heap.WellFormed) {base exponent : Value} {modulus : Option Value}
    (hbase : heap.Holds base) (hexponent : heap.Holds exponent) (hmodulus : heap.HoldsAll modulus) :
    (userPower base exponent modulus).Safe heap Heap.Holds := by
  refine .bind hformed (Capability.safe_invoke? hformed "__pow__" hbase (.cons hexponent ?_)
    (by simp)) fun newer answer hlater hanswer ↦ ?_
  · exact fun value hvalue ↦ hmodulus value (Option.mem_toList.mp hvalue)
  · cases answer with
    | some result => exact .pure (hanswer result rfl)
    | none =>
      cases modulus with
      | none =>
        refine .bind hlater.formed (Capability.safe_invoke? hlater.formed "__rpow__"
          (hexponent.grow hlater.grows) (newer.holdsAll_nil.cons (hbase.grow hlater.grows))
          (by simp)) fun newest reflected _ hreflected ↦ ?_
        cases reflected with
        | some result => exact .pure (hreflected result rfl)
        | none => exact .heap_bind trivial
      | some modulus => exact .heap_bind trivial

theorem safe_power (hformed : heap.WellFormed) {base exponent : Value} {modulus : Option Value}
    (hbase : heap.Holds base) (hexponent : heap.Holds exponent) (hmodulus : heap.HoldsAll modulus) :
    (power base exponent modulus).Safe heap Heap.Holds := by
  unfold power
  cases modulus with
  | none =>
    cases hnative : nativePower? base exponent with
    | none => simpa [hnative] using safe_userPower hformed hbase hexponent hmodulus
    | some program => simpa [hnative] using safe_nativePower hnative
  | some modulus =>
    cases hnative : nativeModularPower? base exponent modulus with
    | none => simpa [hnative] using safe_userPower hformed hbase hexponent hmodulus
    | some program => simpa [hnative] using safe_nativeModularPower hnative

theorem safe_nativeRound {number : Value} {places : Option Int} {outcome : Except Failure Value}
    (houtcome : nativeRound? number places = some outcome) :
    (Program.ofFailure outcome).Safe heap Heap.Holds := by
  unfold nativeRound? at houtcome
  split at houtcome
  · exact Option.some.inj houtcome ▸ .ofFailure_map heap.holds_ofInt
  · exact Option.some.inj houtcome ▸ .ofFailure_map .float
  · obtain ⟨integer, -, rfl⟩ := Option.map_eq_some_iff.mp houtcome
    exact heap.holds_ofInt _

theorem safe_round (hformed : heap.WellFormed) {number digits : Value}
    (hnumber : heap.Holds number) (hdigits : heap.Holds digits) :
    (round number digits).Safe heap Heap.Holds := by
  unfold round
  split
  · refine .heap_bind (.ofExcept_bind fun places _ ↦ ?_)
    split
    · rename_i outcome houtcome
      exact safe_nativeRound houtcome
    · trivial
  · refine Capability.safe_invoke hformed "__round__" hnumber ?_ _
    split
    · exact heap.holdsAll_nil
    · exact heap.holdsAll_nil.cons hdigits

/-! ### Text -/

theorem safe_textAnswer (heap : Heap) (method : String) (answer : Value) :
    (textAnswer method answer).Safe heap fun _ _ ↦ True := by
  unfold textAnswer
  split
  · exact .pure trivial
  · exact .heap_bind trivial

theorem safe_textOf (hformed : heap.WellFormed) (hvalue : heap.Holds value) :
    (textOf value).Safe heap fun _ _ ↦ True := by
  unfold textOf
  split
  · refine .bind hformed (Capability.safe_invoke? hformed "__str__" hvalue heap.holdsAll_nil
      (by simp)) fun newer answer hlater _ ↦ ?_
    cases answer with
    | some answer => exact safe_textAnswer newer "__str__" answer
    | none =>
      refine .bind hlater.formed (Capability.safe_invoke? hlater.formed "__repr__"
        (hvalue.grow hlater.grows) newer.holdsAll_nil (by simp)) fun newest answer _ _ ↦ ?_
      cases answer with
      | some answer => exact safe_textAnswer newest "__repr__" answer
      | none => exact .heap_bind (.pure trivial)
  · exact .heap_bind (.pure trivial)

/-! ### Length and iteration -/

theorem safe_length (hformed : heap.WellFormed) (hvalue : heap.Holds value) :
    (length value).Safe heap fun _ _ ↦ True := by
  refine .heap_bind ?_
  split
  · exact .pure trivial
  · refine .bind hformed (Capability.safe_invoke hformed "__len__" hvalue heap.holdsAll_nil _)
      fun newer answer _ _ ↦ ?_
    exact .heap_bind (.ofExcept fun _ _ ↦ trivial)

/-- The items of a native iterable are held. -/
theorem holdsAll_nativeItems (hformed : heap.WellFormed) (hvalue : heap.Holds value)
    {items : List Value} (hitems : nativeItems? heap value = some items) : heap.HoldsAll items := by
  unfold nativeItems? at hitems
  split at hitems
  · exact Option.some.inj hitems ▸ Heap.holds_tuple.mp hvalue
  · exact Option.some.inj hitems ▸ hformed.items _
  · exact Option.some.inj hitems ▸ Heap.holdsAll_map fun key _ ↦ .text key
  · exact Option.some.inj hitems ▸ Heap.holdsAll_map fun _ _ ↦ .text _
  · exact Option.some.inj hitems ▸ Heap.holdsAll_map fun _ _ ↦ heap.holds_ofNat _
  · cases hitems

theorem safe_iterate (hformed : heap.WellFormed) (hvalue : heap.Holds value) :
    (iterate value).Safe heap Heap.Holds := by
  unfold iterate
  split
  · exact .pure hvalue
  · refine .heap_bind ?_
    split
    · rename_i items hitems
      exact .new (holdsAll_nativeItems hformed hvalue hitems) fun _ _ hnew ↦ hnew
    · exact Capability.safe_invoke hformed "__iter__" hvalue heap.holdsAll_nil _

/-- Whether the item that a step found, if it found one, is held. -/
def Step.Held (heap : Heap) : Step → Prop
  | .produced item => heap.Holds item
  | .exhausted _ => True

theorem safe_advance (hformed : heap.WellFormed) {iterator : Value}
    (hiterator : heap.Holds iterator) :
    (advance iterator).Safe heap fun newer step ↦ step.Held newer := by
  unfold advance
  split
  · refine .effect_bind trivial fun newer item _ hitem ↦ ?_
    cases item with
    | some item => exact .pure (hitem item rfl)
    | none => exact .pure trivial
  · refine .handling_bind (Capability.safe_invoke? hformed "__next__" hiterator heap.holdsAll_nil
      (by simp)) (fun newer answer _ hanswer ↦ ?_) fun newer signal _ ↦ .pure trivial
    cases answer with
    | some item => exact .pure (hanswer item rfl)
    | none => exact .heap_bind trivial

theorem safe_collect (hformed : heap.WellFormed) (hvalue : heap.Holds value) :
    (collect value).Safe heap fun newer items ↦ newer.HoldsAll items := by
  unfold collect
  split
  · exact .pure (Heap.holds_tuple.mp hvalue)
  · exact .heap_bind (.pure (hformed.items _))
  · refine .bind hformed (safe_iterate hformed hvalue) fun newer iterator _ hiterator ↦ ?_
    split
    · exact .effect trivial fun _ _ _ hitems ↦ hitems
    · exact .request (.drain _) hiterator

end Operation

end Metaobject
