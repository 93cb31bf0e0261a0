import Metaobject.Arguments.Parameters
import Metaobject.Proofs.Run.Safety

/-!
# Bound arguments are held

What the binders of arguments give is held when the arguments and the defaults are: the positional
binders, which give the arguments themselves in a fixed shape, and the binding of the parameters of
a user function (`Arguments.holdsEntries_bindParameters`).
-/

set_option autoImplicit false
set_option relaxedAutoImplicit false

namespace Metaobject.Arguments

variable {heap : Heap} {arguments : Arguments} {name : String}

/-! ### Positional binders -/

theorem exists_of_bind_ok {Fault First Second : Type} {outcome : Except Fault First}
    {next : First → Except Fault Second} {result : Second}
    (hresult : (outcome >>= next) = .ok result) :
    ∃ first, outcome = .ok first ∧ next first = .ok result := by
  cases outcome with
  | ok first => exact ⟨first, rfl, hresult⟩
  | error => cases hresult

theorem orRaised_eq_ok {Result : Type} {outcome : Except Exception Result} {result : Result}
    (hresult : orRaised outcome = .ok result) : outcome = .ok result := by
  cases outcome with
  | ok => exact congrArg Except.ok (Except.ok.inj hresult)
  | error => cases hresult

theorem eq_of_exactly {expected : Nat} {values : List Value}
    (hvalues : arguments.exactly name expected = .ok values) : values = arguments.positional := by
  obtain ⟨_, -, hvalues⟩ := exists_of_bind_ok hvalues
  split at hvalues
  · exact (Except.ok.inj hvalues).symm
  · cases hvalues

theorem eq_of_between {least most : Nat} {values : List Value}
    (hvalues : arguments.between name least most = .ok values) :
    values = arguments.positional := by
  obtain ⟨_, -, hvalues⟩ := exists_of_bind_ok hvalues
  split at hvalues
  · exact (Except.ok.inj hvalues).symm
  · repeat (split at hvalues; cases hvalues)
    cases hvalues

theorem count_le_of_between {least most : Nat} {values : List Value}
    (hvalues : arguments.between name least most = .ok values) : arguments.count ≤ most := by
  obtain ⟨_, -, hvalues⟩ := exists_of_bind_ok hvalues
  split at hvalues
  · rename_i hcount
    exact hcount.2
  · repeat (split at hvalues; cases hvalues)
    cases hvalues

theorem eq_of_one {first : Value} (hone : arguments.one name = .ok first) :
    arguments.positional = [first] := by
  obtain ⟨values, hvalues, hmatch⟩ := exists_of_bind_ok hone
  rw [← eq_of_exactly (orRaised_eq_ok hvalues)]
  split at hmatch
  · exact congrArg ([·]) (Except.ok.inj hmatch)
  · cases hmatch

theorem eq_of_two {first second : Value} (htwo : arguments.two name = .ok (first, second)) :
    arguments.positional = [first, second] := by
  obtain ⟨values, hvalues, hmatch⟩ := exists_of_bind_ok htwo
  rw [← eq_of_exactly (orRaised_eq_ok hvalues)]
  split at hmatch
  · cases hmatch
    rfl
  · cases hmatch

theorem eq_of_three {first second third : Value}
    (hthree : arguments.three name = .ok (first, second, third)) :
    arguments.positional = [first, second, third] := by
  obtain ⟨values, hvalues, hmatch⟩ := exists_of_bind_ok hthree
  rw [← eq_of_exactly (orRaised_eq_ok hvalues)]
  split at hmatch
  · cases hmatch
    rfl
  · cases hmatch

theorem eq_of_oneOrTwo {first : Value} {second : Option Value}
    (hbound : arguments.oneOrTwo name = .ok (first, second)) :
    arguments.positional = first :: second.toList := by
  obtain ⟨values, hvalues, hmatch⟩ := exists_of_bind_ok hbound
  rw [← eq_of_between (orRaised_eq_ok hvalues)]
  split at hmatch
  · cases hmatch
    rfl
  · cases hmatch
    rfl
  · cases hmatch

theorem eq_of_twoOrThree {first second : Value} {third : Option Value}
    (hbound : arguments.twoOrThree name = .ok (first, second, third)) :
    arguments.positional = first :: second :: third.toList := by
  obtain ⟨values, hvalues, hmatch⟩ := exists_of_bind_ok hbound
  rw [← eq_of_between (orRaised_eq_ok hvalues)]
  split at hmatch
  · cases hmatch
    rfl
  · cases hmatch
    rfl
  · cases hmatch

theorem holdsAll_withDefaults (hheld : arguments.Held heap) {least : Nat}
    {defaults values : List Value} (hdefaults : heap.HoldsAll defaults)
    (hvalues : arguments.withDefaults name least defaults = .ok values) :
    heap.HoldsAll values := by
  unfold withDefaults at hvalues
  cases hsupplied : arguments.between name least defaults.length with
  | error => rw [hsupplied] at hvalues; cases hvalues
  | ok supplied =>
    rw [hsupplied] at hvalues
    cases hvalues
    intro value hvalue
    rcases List.mem_append.mp hvalue with hfirst | hlater
    · exact hheld.positional value (eq_of_between hsupplied ▸ hfirst)
    · exact hdefaults value (List.mem_of_mem_drop hlater)

theorem count_le_of_optional {default value : Value}
    (hvalue : arguments.optional name default = .ok value) : arguments.count ≤ 1 := by
  obtain ⟨values, hvalues, -⟩ := exists_of_bind_ok hvalue
  have hvalues := orRaised_eq_ok hvalues
  unfold withDefaults at hvalues
  cases hsupplied : arguments.between name 0 [default].length with
  | error =>
    rw [hsupplied] at hvalues
    cases hvalues
  | ok supplied => exact count_le_of_between hsupplied

theorem holds_optional (hheld : arguments.Held heap) {default value : Value}
    (hdefault : heap.Holds default) (hvalue : arguments.optional name default = .ok value) :
    heap.Holds value := by
  obtain ⟨values, hvalues, hmatch⟩ := exists_of_bind_ok hvalue
  have hall := holdsAll_withDefaults hheld (heap.holdsAll_nil.cons hdefault)
    (orRaised_eq_ok hvalues)
  split at hmatch
  · cases hmatch
    exact hall value List.mem_cons_self
  · cases hmatch

/-! ### Parameters of user functions -/

theorem holdsEntries_bindByName {parameters : List String} {filled : Nat}
    {bound final : Entries Value} {pairs : List (String × Value)}
    (hbound : heap.HoldsEntries bound) (hpairs : ∀ pair ∈ pairs, heap.Holds pair.2)
    (hfinal : bindByName name parameters filled bound pairs = .ok final) :
    heap.HoldsEntries final := by
  induction pairs generalizing bound with
  | nil =>
    cases hfinal
    exact hbound
  | cons pair rest ih =>
    obtain ⟨hpair, hrest⟩ := List.forall_mem_cons.mp hpairs
    obtain ⟨key, value⟩ := pair
    unfold bindByName at hfinal
    split at hfinal
    · cases hfinal
    · split at hfinal
      · cases hfinal
      · exact ih (hbound.insert hpair key) hrest hfinal

theorem mem_of_defaultFor {defaults : List Value} {count index : Nat} {value : Value}
    (hvalue : defaultFor defaults count index = some value) : value ∈ defaults := by
  unfold defaultFor at hvalue
  dsimp only at hvalue
  split at hvalue
  · cases hvalue
  · exact List.mem_of_getElem? hvalue

theorem holdsEntries_bindDefaults {defaults : List Value} {count index : Nat}
    {bound : Entries Value} {parameters : List String} (hdefaults : heap.HoldsAll defaults)
    (hbound : heap.HoldsEntries bound) :
    heap.HoldsEntries (bindDefaults defaults count index bound parameters).1 := by
  induction parameters generalizing index bound with
  | nil => exact hbound
  | cons parameter rest ih =>
    unfold bindDefaults
    split
    · exact ih hbound
    · split
      · rename_i value hvalue
        exact ih (hbound.insert (hdefaults value (mem_of_defaultFor hvalue)) parameter)
      · exact ih hbound

/-- The local variables that the parameters of a function become are held. -/
theorem holdsEntries_bindParameters {parameters : List String}
    {defaults positional : List Value} {keywords : List (String × Value)} {final : Entries Value}
    (hdefaults : heap.HoldsAll defaults) (hpositional : heap.HoldsAll positional)
    (hkeywords : ∀ pair ∈ keywords, heap.Holds pair.2)
    (hfinal : bindParameters name parameters defaults positional keywords = .ok final) :
    heap.HoldsEntries final := by
  unfold bindParameters at hfinal
  dsimp only at hfinal
  split at hfinal
  · cases hfinal
  · obtain ⟨byName, hbyName, hfinal⟩ := exists_of_bind_ok hfinal
    have hzip : heap.HoldsEntries (.ofList (parameters.zip positional)) :=
      Heap.holdsEntries_ofList fun pair hpair ↦ hpositional _ (List.of_mem_zip hpair).2
    have hdefaulted : heap.HoldsEntries
        (bindDefaults defaults parameters.length 0 byName parameters).1 :=
      holdsEntries_bindDefaults hdefaults (holdsEntries_bindByName hzip hkeywords hbyName)
    split at hfinal
    · rename_i bound hbound
      cases hfinal
      simpa only [hbound] using hdefaulted
    · cases hfinal

end Metaobject.Arguments

namespace Metaobject.Function

variable {heap : Heap} {arguments : Arguments}

/-- The local scope of a call is there. -/
theorem safe_localsFor (hformed : heap.WellFormed) {function : FunctionRecord}
    (hfunction : function.Sound heap) (harguments : arguments.Held heap) :
    (localsFor function arguments).Safe heap fun newer address ↦ newer.Holds (.dict address) := by
  refine .heap_bind ?_
  split
  · trivial
  · split
    · split
      · rename_i dict hpositional _
        exact .pure (harguments.positional _ (hpositional ▸ List.mem_cons_self))
      · trivial
    · refine .ofExcept_bind fun bound hbound ↦ ?_
      exact .effect (Arguments.holdsEntries_bindParameters hfunction.defaults harguments.positional
        (arguments.holds_keywordList hformed) hbound) fun _ _ _ hnew ↦ hnew

end Metaobject.Function
