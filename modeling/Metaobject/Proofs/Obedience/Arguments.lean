import Metaobject.Arguments.Parameters
import Metaobject.Proofs.Run.Obedience
import Metaobject.Proofs.Safety.Arguments

/-!
# Binders never fail by themselves

The binders of arguments end with an exception or with bound values, never with an internal error:
the positional binders find the number of values that they have made sure of (`regular_one` and its
siblings), and binding against a descriptor that can be read fails with exceptions only
(`regular_bind`). What is bound against a descriptor fits the kinds of its parameters
(`fits_of_bind`).
-/

set_option autoImplicit false
set_option relaxedAutoImplicit false

namespace Metaobject

/-! ### Regular outcomes -/

theorem regular_ok {Result : Type} (result : Result) :
    Regular (.ok result : Except Failure Result) :=
  fun _ hsame ↦ nomatch hsame

theorem regular_raised {Result : Type} (exception : Exception) :
    Regular (.error (.raised exception) : Except Failure Result) :=
  fun _ hsame ↦ nomatch hsame

theorem regular_orRaised {Result : Type} (outcome : Except Exception Result) :
    Regular (Arguments.orRaised outcome) := by
  cases outcome with
  | ok result => exact regular_ok result
  | error exception => exact regular_raised exception

theorem Regular.bind {First Second : Type} {outcome : Except Failure First}
    {next : First → Except Failure Second} (houtcome : Regular outcome)
    (hnext : ∀ result, outcome = .ok result → Regular (next result)) :
    Regular (outcome >>= next) := by
  intro message hsame
  cases hfirst : outcome with
  | ok result =>
    rw [hfirst] at hsame
    exact hnext result hfirst message hsame
  | error failure =>
    rw [hfirst] at hsame
    exact houtcome message (hfirst.trans (congrArg Except.error (Except.error.inj hsame)))

namespace Arguments

variable {arguments : Arguments} {name : String}

/-! ### Positional binders -/

theorem length_of_exactly {expected : Nat} {values : List Value}
    (hvalues : arguments.exactly name expected = .ok values) : values.length = expected := by
  obtain ⟨_, -, hvalues⟩ := exists_of_bind_ok hvalues
  split at hvalues
  · rename_i hcount
    rw [← Except.ok.inj hvalues]
    exact hcount
  · cases hvalues

theorem length_of_between {least most : Nat} {values : List Value}
    (hvalues : arguments.between name least most = .ok values) :
    least ≤ values.length ∧ values.length ≤ most := by
  obtain ⟨_, -, hvalues⟩ := exists_of_bind_ok hvalues
  split at hvalues
  · rename_i hcount
    rw [← Except.ok.inj hvalues]
    exact hcount
  · repeat (split at hvalues; cases hvalues)
    cases hvalues

theorem length_of_withDefaults {least : Nat} {defaults values : List Value}
    (hvalues : arguments.withDefaults name least defaults = .ok values) :
    values.length = defaults.length := by
  unfold withDefaults at hvalues
  cases hsupplied : arguments.between name least defaults.length with
  | error =>
    rw [hsupplied] at hvalues
    cases hvalues
  | ok supplied =>
    rw [hsupplied] at hvalues
    have hlength := (length_of_between hsupplied).2
    rw [← Except.ok.inj hvalues, List.length_append, List.length_drop]
    omega

/-- A binder that makes sure of the number of values finds that number. -/
theorem regular_one : Regular (arguments.one name) := by
  refine (regular_orRaised _).bind fun values hvalues ↦ ?_
  have hlength := length_of_exactly (orRaised_eq_ok hvalues)
  obtain ⟨first, rfl⟩ := List.length_eq_one_iff.mp hlength
  exact regular_ok first

theorem regular_two : Regular (arguments.two name) := by
  refine (regular_orRaised _).bind fun values hvalues ↦ ?_
  have hlength := length_of_exactly (orRaised_eq_ok hvalues)
  obtain ⟨first, second, rfl⟩ := List.length_eq_two.mp hlength
  exact regular_ok _

theorem regular_three : Regular (arguments.three name) := by
  refine (regular_orRaised _).bind fun values hvalues ↦ ?_
  have hlength := length_of_exactly (orRaised_eq_ok hvalues)
  obtain ⟨first, second, third, rfl⟩ := List.length_eq_three.mp hlength
  exact regular_ok _

theorem regular_oneOrTwo : Regular (arguments.oneOrTwo name) := by
  refine (regular_orRaised _).bind fun values hvalues ↦ ?_
  obtain ⟨hleast, hmost⟩ := length_of_between (orRaised_eq_ok hvalues)
  obtain hlength | hlength : values.length = 1 ∨ values.length = 2 := by omega
  · obtain ⟨first, rfl⟩ := List.length_eq_one_iff.mp hlength
    exact regular_ok _
  · obtain ⟨first, second, rfl⟩ := List.length_eq_two.mp hlength
    exact regular_ok _

theorem regular_twoOrThree : Regular (arguments.twoOrThree name) := by
  refine (regular_orRaised _).bind fun values hvalues ↦ ?_
  obtain ⟨hleast, hmost⟩ := length_of_between (orRaised_eq_ok hvalues)
  obtain hlength | hlength : values.length = 2 ∨ values.length = 3 := by omega
  · obtain ⟨first, second, rfl⟩ := List.length_eq_two.mp hlength
    exact regular_ok _
  · obtain ⟨first, second, third, rfl⟩ := List.length_eq_three.mp hlength
    exact regular_ok _

theorem regular_optional {default : Value} : Regular (arguments.optional name default) := by
  refine (regular_orRaised _).bind fun values hvalues ↦ ?_
  have hlength := length_of_withDefaults (orRaised_eq_ok hvalues)
  obtain ⟨value, rfl⟩ := List.length_eq_one_iff.mp hlength
  exact regular_ok value

/-! ### Descriptors -/

/-- Whether a value is one that a parameter of a kind gives. -/
def Fits : ParameterKind → Value → Prop
  | .any, _ => True
  | .text, value => ∃ content, value = .text content
  | .integer, value => value.word?.isSome

theorem word?_ofNat_toNat (truth : Bool) : (Value.ofNat truth.toNat).word?.isSome := by
  cases truth <;> decide

theorem word?_int (word : Int64) : (Value.int word).word?.isSome := by
  have hfits : Value.fitsWord word.toInt := decide_eq_true ⟨word.le_toInt, word.toInt_lt⟩
  show ((some word.toInt).filter Value.fitsWord).isSome
  rw [Option.filter_some, if_pos hfits]
  rfl

/-- What a parameter takes fits its kind. -/
theorem fits_of_convert {heap : Heap} {place : ArgumentPlace} {kind : ParameterKind}
    {value converted : Value} (hconverted : kind.convert heap name place value = .ok converted) :
    Fits kind converted := by
  cases kind with
  | any => trivial
  | text =>
    cases value with
    | text content => exact ⟨content, (Except.ok.inj hconverted).symm⟩
    | _ => exact nomatch hconverted
  | integer =>
    cases value with
    | bool truth =>
      rw [← Except.ok.inj hconverted]
      exact word?_ofNat_toNat truth
    | int word =>
      rw [← Except.ok.inj hconverted]
      exact word?_int word
    | _ => exact nomatch hconverted

/-- Whether the filled ones of the slots fit the kinds of their parameters. -/
def SlotsFit (kinds : List ParameterKind) (slots : Slots) : Prop :=
  List.Forall₂ (fun kind slot ↦ ∀ value ∈ slot, Fits kind value) kinds slots

theorem slotsFit_empty (kinds : List ParameterKind) : SlotsFit kinds (kinds.map fun _ ↦ none) := by
  induction kinds with
  | nil => exact .nil
  | cons kind kinds ih => exact .cons (fun _ hvalue ↦ nomatch hvalue) ih

theorem slotsFit_bindPositional {heap : Heap} {kinds : List ParameterKind} {values : List Value}
    {position : Nat} {slots : Slots}
    (hslots : bindPositional heap name position kinds values = .ok slots) :
    SlotsFit kinds slots := by
  induction kinds generalizing values position slots with
  | nil =>
    cases hslots
    exact .nil
  | cons kind kinds ih =>
    cases values with
    | nil =>
      cases hslots
      exact slotsFit_empty (kind :: kinds)
    | cons value values =>
      obtain ⟨converted, hconverted, hslots⟩ := exists_of_bind_ok hslots
      obtain ⟨rest, hrest, hslots⟩ := exists_of_bind_ok hslots
      cases hslots
      refine .cons (fun other hother ↦ ?_) (ih hrest)
      rw [← Option.some.inj hother]
      exact fits_of_convert hconverted

theorem SlotsFit.set {kinds : List ParameterKind} {slots : Slots} (hslots : SlotsFit kinds slots)
    {index : Nat} {value : Value} (hvalue : Fits (kinds[index]?.getD .any) value) :
    SlotsFit kinds (slots.set index (some value)) := by
  induction hslots generalizing index with
  | nil => exact .nil
  | @cons kind slot kinds slots hslot hrest ih =>
    cases index with
    | zero =>
      refine .cons (fun other hother ↦ ?_) hrest
      rw [← Option.some.inj hother]
      exact hvalue
    | succ index => exact .cons hslot (ih hvalue)

theorem slotsFit_bindKeywords {heap : Heap} {descriptor : Descriptor} {names : List String}
    {slots final : Slots} {pairs : List (String × Value)}
    (hslots : SlotsFit descriptor.kinds slots)
    (hfinal : bindKeywords heap descriptor names slots pairs = .ok final) :
    SlotsFit descriptor.kinds final := by
  induction pairs generalizing slots with
  | nil =>
    cases hfinal
    exact hslots
  | cons pair rest ih =>
    obtain ⟨key, value⟩ := pair
    unfold bindKeywords at hfinal
    split at hfinal
    · cases hfinal
    · split at hfinal
      · cases hfinal
      · obtain ⟨converted, hconverted, hfinal⟩ := exists_of_bind_ok hfinal
        exact ih (hslots.set (fits_of_convert hconverted)) hfinal

/-- The first value that filling gives stands in the slot, or is the default of an optional
parameter. -/
theorem exists_of_fill_cons {descriptor : Descriptor} {names : Option (List String)}
    {count index : Nat} {slot : Option Value} {slots : Slots} {default : Value}
    {defaults values : List Value}
    (hvalues : fill descriptor names count index (slot :: slots) (default :: defaults) =
      .ok values) :
    ∃ value rest, (slot = some value ∨ descriptor.required ≤ index ∧ value = default) ∧
      fill descriptor names count (index + 1) slots defaults = .ok rest ∧
      values = value :: rest := by
  unfold fill at hvalues
  cases slot with
  | some value =>
    have hvalues : (fill descriptor names count (index + 1) slots defaults >>= fun rest ↦
        Except.ok (value :: rest)) = Except.ok values := hvalues
    obtain ⟨rest, hrest, hvalues⟩ := exists_of_bind_ok hvalues
    exact ⟨value, rest, .inl rfl, hrest, (Except.ok.inj hvalues).symm⟩
  | none =>
    by_cases hindex : index < descriptor.required
    · dsimp only at hvalues
      rw [if_pos hindex] at hvalues
      cases hvalues
    · dsimp only at hvalues
      rw [if_neg hindex] at hvalues
      have hvalues : (fill descriptor names count (index + 1) slots defaults >>= fun rest ↦
          Except.ok (default :: rest)) = Except.ok values := hvalues
      obtain ⟨rest, hrest, hvalues⟩ := exists_of_bind_ok hvalues
      exact ⟨default, rest, .inr ⟨Nat.le_of_not_lt hindex, rfl⟩, hrest,
        (Except.ok.inj hvalues).symm⟩

/-- Filled slots and fitting defaults give fitting values. -/
theorem fits_of_fill {descriptor : Descriptor} {names : Option (List String)} {count index : Nat}
    {kinds : List ParameterKind} {slots : Slots} {defaults values : List Value}
    (hslots : SlotsFit kinds slots) (hlength : kinds.length = defaults.length)
    (hdefaults : ∀ place kind default, kinds[place]? = some kind → defaults[place]? = some default →
      descriptor.required ≤ index + place → Fits kind default)
    (hvalues : fill descriptor names count index slots defaults = .ok values) :
    List.Forall₂ Fits kinds values := by
  induction hslots generalizing index defaults values with
  | nil =>
    unfold fill at hvalues
    cases hvalues
    exact .nil
  | @cons kind slot kinds slots hslot hrest ih =>
    cases defaults with
    | nil => cases hlength
    | cons default defaults =>
      obtain ⟨value, rest, hvalue, hfilled, rfl⟩ := exists_of_fill_cons hvalues
      refine .cons ?_ (ih (Nat.succ.inj hlength) (fun place other given hkind hgiven hplace ↦ ?_)
        hfilled)
      · obtain hgiven | ⟨hindex, rfl⟩ := hvalue
        · exact hslot value hgiven
        · exact hdefaults 0 kind value rfl rfl hindex
      · exact hdefaults (place + 1) other given hkind hgiven (by omega)

/-- What is bound against a descriptor fits the kinds of its parameters, if the defaults of the
optional ones do. -/
theorem fits_of_bindTo {heap : Heap} {descriptor : Descriptor} {names : Option (List String)}
    {defaults values : List Value} (hlength : descriptor.kinds.length = defaults.length)
    (hdefaults : ∀ place kind default, descriptor.kinds[place]? = some kind →
      defaults[place]? = some default → descriptor.required ≤ place → Fits kind default)
    (hvalues : arguments.bindTo heap descriptor names defaults = .ok values) :
    List.Forall₂ Fits descriptor.kinds values := by
  unfold bindTo at hvalues
  dsimp only at hvalues
  split at hvalues
  · cases hvalues
  · obtain ⟨positional, hpositional, hvalues⟩ := exists_of_bind_ok hvalues
    have hfits := slotsFit_bindPositional hpositional
    obtain ⟨slots, hslots, hvalues⟩ : ∃ slots, SlotsFit descriptor.kinds slots ∧
        fill descriptor names arguments.count 0 slots defaults = .ok values := by
      split at hvalues
      · exact ⟨positional, hfits, hvalues⟩
      · cases hvalues
      · obtain ⟨slots, hslots, hvalues⟩ := exists_of_bind_ok hvalues
        exact ⟨slots, slotsFit_bindKeywords hfits hslots, hvalues⟩
    refine fits_of_fill hslots hlength (fun place kind default hkind hdefault hplace ↦ ?_) hvalues
    exact hdefaults place kind default hkind hdefault (by omega)

/-- Binding against a descriptor that can be read, with a default for each parameter, ends with an
exception or with values. -/
theorem regular_bind {heap : Heap} {format : String} {descriptor : Descriptor}
    {names : Option (List String)} {defaults : List Value}
    (hread : Descriptor.read format = .ok descriptor)
    (hlength : descriptor.kinds.length = defaults.length) :
    Regular (arguments.bind heap format names defaults) := by
  intro message
  rw [bind, hread]
  show (if descriptor.kinds.length ≠ defaults.length then _ else _) ≠ _
  rw [if_neg (not_not_intro hlength)]
  exact regular_orRaised _ message

theorem bindTo_of_bind {heap : Heap} {format : String} {descriptor : Descriptor}
    {names : Option (List String)} {defaults values : List Value}
    (hread : Descriptor.read format = .ok descriptor)
    (hlength : descriptor.kinds.length = defaults.length)
    (hvalues : arguments.bind heap format names defaults = .ok values) :
    arguments.bindTo heap descriptor names defaults = .ok values := by
  rw [bind, hread] at hvalues
  have hvalues : (if descriptor.kinds.length ≠ defaults.length then _ else
      orRaised (arguments.bindTo heap descriptor names defaults)) = Except.ok values := hvalues
  rw [if_neg (not_not_intro hlength)] at hvalues
  exact orRaised_eq_ok hvalues

end Arguments

/-! ### Scopes of functions -/

theorem Function.obeys_localsFor {policy : Policy}
    (hmisuse : policy.faults "class body must be called with exactly its namespace")
    (function : FunctionRecord) (arguments : Arguments) :
    (localsFor function arguments).Obeys policy := by
  refine .heap_bind fun heap ↦ ?_
  split
  · exact hmisuse
  · split
    · split
      · trivial
      · exact hmisuse
    · exact .ofExcept_bind fun _ _ ↦ .effect trivial

end Metaobject
