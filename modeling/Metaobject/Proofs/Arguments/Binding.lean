import Metaobject.Proofs.Arguments.Slots
import Metaobject.Proofs.Obedience.Arguments

/-!
# Binding against a descriptor

A descriptor accepts arguments if there are not too many of them by position, each one is taken by
its parameter, each keyword names a parameter that is still free, and no required parameter is left
out (`Arguments.Accepts`). Binding succeeds exactly on the arguments that are accepted, and gives
each parameter what is supplied for it, or else its default (`Arguments.bindTo_eq_ok_iff`). In terms
of the text of the descriptor and its codes this is `Arguments.bind_specified`.
-/

set_option autoImplicit false
set_option relaxedAutoImplicit false

namespace Metaobject

namespace Arguments

section

variable {name : String} {descriptor : Descriptor} {slots : Slots}

/-! ### All arguments -/

/-- The argument for the parameter at a place: the positional one, or else the one given under its
name. -/
def argumentAt? (positional : List Value) (names : Option (List String)) (given : Entries Value)
    (index : Nat) : Option Value :=
  positional[index]?.or (names.bind fun listed ↦ keywordAt? listed given.toList index)

/-- Whether a descriptor accepts arguments. -/
structure Accepts (descriptor : Descriptor) (names : Option (List String)) (positional : List Value)
    (given : Entries Value) : Prop where
  few : positional.length ≤ descriptor.kinds.length
  taken : ∀ (index : Nat) kind value, descriptor.kinds[index]? = some kind →
    positional[index]? = some value → (kind.taken? value).isSome
  placed : ∀ key value, given.find? key = some value →
    ∃ listed ∈ names, Placed descriptor.kinds listed (positional[·]?) key value
  filled : ∀ index < descriptor.required, (argumentAt? positional names given index).isSome

/-- Each argument that a descriptor accepts is taken. -/
theorem Accepts.isSome_taken? {names : Option (List String)} {positional : List Value}
    {given : Entries Value} (haccepts : Accepts descriptor names positional given) {index : Nat}
    {kind : ParameterKind} {value : Value} (hkind : descriptor.kinds[index]? = some kind)
    (hvalue : argumentAt? positional names given index = some value) :
    (kind.taken? value).isSome := by
  unfold argumentAt? at hvalue
  obtain hposition | ⟨-, hkeyword⟩ := Option.or_eq_some_iff.mp hvalue
  · exact haccepts.taken index kind value hkind hposition
  · obtain ⟨listed, hlisted, hplace⟩ := Option.bind_eq_some_iff.mp hkeyword
    unfold keywordAt? at hplace
    obtain ⟨key, -, hgiven⟩ := Option.bind_eq_some_iff.mp hplace
    split at hgiven
    · rename_i hfirst
      obtain ⟨other, hother, -, -, taker, htaker, htaken⟩ := haccepts.placed key value hgiven
      obtain rfl : listed = other := Option.some.inj (hlisted.symm.trans hother)
      rw [hfirst, hkind] at htaker
      rw [Option.some.inj htaker]
      exact htaken
    · cases hgiven

/-- Whether an exception tells why a descriptor does not accept arguments. -/
def Faults (descriptor : Descriptor) (names : Option (List String)) (positional : List Value)
    (given : Entries Value) (exception : Exception) : Prop :=
  exception.cls = .typeError ∨ exception.cls = .overflowError ∧
    ∃ (index : Nat) (integer : Int), descriptor.kinds[index]? = some .integer ∧
      argumentAt? positional names given index = some (.long integer)

section

variable (heap : Heap) (positional : List Value) (keywords : Option Address)
  {names : Option (List String)} {defaults : List Value}

/-- An empty dict of keywords counts as none. -/
theorem keywords_of_cases :
    ((of heap positional keywords).keywords = none ∧
        ((keywords.map heap.entries).getD .empty).toList = []) ∨
      ∃ address, (of heap positional keywords).keywords = some address ∧
        (of heap positional keywords).keywordList heap =
          ((keywords.map heap.entries).getD .empty).toList ∧
        ((keywords.map heap.entries).getD .empty).toList ≠ [] := by
  cases keywords with
  | none => exact Or.inl ⟨rfl, rfl⟩
  | some address =>
    cases hempty : (heap.entries address).isEmpty with
    | true =>
      refine Or.inl ⟨?_, List.isEmpty_iff.mp hempty⟩
      rw [of, Option.filter_some, hempty]
      rfl
    | false =>
      have hkeywords : (of heap positional (some address)).keywords = some address := by
        rw [of, Option.filter_some, hempty]
        rfl
      refine Or.inr ⟨address, hkeywords, ?_, List.isEmpty_eq_false_iff.mp hempty⟩
      rw [keywordList, hkeywords]
      rfl

/-- Whether values are what the parameters of a descriptor are bound to: what is supplied for them,
converted, or else their defaults. -/
def Bound (descriptor : Descriptor) (names : Option (List String))
    (defaults positional : List Value) (given : Entries Value) (values : List Value) : Prop :=
  values.length = defaults.length ∧
    ∀ (index : Nat) kind, descriptor.kinds[index]? = some kind → values[index]? =
      ((argumentAt? positional names given index).bind kind.taken?).or defaults[index]?

/-- When all arguments have found their place, only a required parameter can be missing. -/
theorem fill_argumentAt? {positional : List Value} {given : Entries Value} (count : Nat)
    (hrequired : descriptor.required ≤ descriptor.kinds.length)
    (hdefaults : descriptor.kinds.length = defaults.length)
    (hfew : positional.length ≤ descriptor.kinds.length)
    (htaken : ∀ (index : Nat) kind value, descriptor.kinds[index]? = some kind →
      positional[index]? = some value → (kind.taken? value).isSome)
    (hplaced : ∀ key value, given.find? key = some value →
      ∃ listed ∈ names, Placed descriptor.kinds listed (positional[·]?) key value)
    (hhold : Hold descriptor.kinds (argumentAt? positional names given) slots) :
    Concludes
      (fun values ↦ Accepts descriptor names positional given ∧
        Bound descriptor names defaults positional given values)
      (fun exception ↦ ¬Accepts descriptor names positional given ∧
        Faults descriptor names positional given exception)
      (fill descriptor names count 0 slots defaults) := by
  refine (fill_concludes names count 0 (hhold.length_eq.trans hdefaults)).mono ?_ ?_
  · rintro values ⟨hfull, hlength, hvalues⟩
    refine ⟨⟨hfew, htaken, hplaced, fun index hindex ↦ ?_⟩, hlength, fun index kind hkind ↦ ?_⟩
    · rw [Option.isSome_iff_ne_none, Ne, ← hhold.slot_eq_some_none_iff (by omega)]
      intro hslot
      have hplace := hfull index hslot
      omega
    · have hindex := (List.getElem?_eq_some_iff.mp hkind).1
      rw [hdefaults] at hindex
      rw [hvalues, hhold.slot, hkind, Option.map_some, Option.join_some,
        List.getElem?_eq_getElem hindex, Option.map_some]
      cases (argumentAt? positional names given index).bind kind.taken? <;> rfl
  · rintro exception ⟨hclass, place, hslot, hplace⟩
    refine ⟨fun haccepts ↦ ?_, Or.inl hclass⟩
    have hgiven := haccepts.filled place (by omega)
    rw [(hhold.slot_eq_some_none_iff (by omega)).mp hslot] at hgiven
    cases hgiven

/-- Binding succeeds on the arguments that a descriptor accepts, and gives each parameter what is
supplied for it, or else its default. -/
theorem bindTo_concludes (hrequired : descriptor.required ≤ descriptor.kinds.length)
    (hdefaults : descriptor.kinds.length = defaults.length)
    (hnames : ∀ listed ∈ names, listed.length = descriptor.kinds.length) :
    let given := (keywords.map heap.entries).getD .empty
    Concludes
      (fun values ↦ Accepts descriptor names positional given ∧
        Bound descriptor names defaults positional given values)
      (fun exception ↦ ¬Accepts descriptor names positional given ∧
        Faults descriptor names positional given exception)
      (bindTo heap (of heap positional keywords) descriptor names defaults) := by
  intro given
  unfold bindTo
  dsimp only
  by_cases hfew : descriptor.kinds.length < (of heap positional keywords).count
  · rw [if_pos hfew]
    exact ⟨fun haccepts ↦ absurd haccepts.few (Nat.not_le.mpr hfew), Or.inl rfl⟩
  rw [if_neg hfew]
  have hfew : positional.length ≤ descriptor.kinds.length := Nat.not_lt.mp hfew
  refine (bindPositional_concludes 1 positional).bind (fun slots hslots ↦ ?_) ?_
  · obtain ⟨hkeywords, hgiven⟩ | ⟨address, hkeywords, hlist, hgiven⟩ :=
      keywords_of_cases heap positional keywords
    · have hhold : Hold descriptor.kinds (argumentAt? positional names given) slots := by
        convert hslots using 2 with index
        unfold argumentAt?
        rw [hgiven]
        cases names with
        | none => rw [Option.bind_none, Option.or_none]
        | some listed => rw [Option.bind_some, keywordAt?_nil, Option.or_none]
      rw [hkeywords]
      refine fill_argumentAt? _ hrequired hdefaults hfew hslots.taken
        (fun key value hvalue ↦ ?_) hhold
      rw [← Entries.mem_toList_iff, hgiven] at hvalue
      cases hvalue
    · rw [hkeywords]
      cases names with
      | none =>
        refine ⟨fun haccepts ↦ ?_, Or.inl rfl⟩
        obtain ⟨⟨key, value⟩, hpair⟩ := List.exists_mem_of_ne_nil _ hgiven
        obtain ⟨_, hnone, -⟩ :=
          haccepts.placed key value ((given.mem_toList_iff key value).mp hpair)
        cases hnone
      | some listed =>
        dsimp only
        rw [hlist]
        refine (bindKeywords_concludes (hnames listed rfl) given.keys_nodup hslots).bind ?_ ?_
        · rintro final ⟨hhold, hplaced⟩
          exact fill_argumentAt? _ hrequired hdefaults hfew hslots.taken (fun key value hvalue ↦
            ⟨listed, rfl, hplaced _ ((given.mem_toList_iff key value).mpr hvalue)⟩) hhold
        · rintro exception ⟨⟨key, value⟩, hpair, hnot, hblames⟩
          have hvalue := (given.mem_toList_iff key value).mp hpair
          refine ⟨fun haccepts ↦ ?_, hblames.imp_right ?_⟩
          · obtain ⟨other, hother, hplaced⟩ := haccepts.placed key value hvalue
            obtain rfl : listed = other := Option.some.inj hother
            exact hnot hplaced
          · rintro ⟨hclass, hkey, hfree, hkind, integer, rfl⟩
            refine ⟨hclass, listed.idxOf key, integer, hkind, ?_⟩
            have hfree : positional[listed.idxOf key]? = none := hfree
            rw [argumentAt?, hfree, Option.none_or, Option.bind_some, keywordAt?_idxOf hkey]
            exact hvalue
  · rintro exception ⟨index, kind, value, hkind, hvalue, htaken, hrefuses⟩
    refine ⟨fun haccepts ↦ ?_, hrefuses.imp_right ?_⟩
    · have htaken' := haccepts.taken index kind value hkind hvalue
      rw [htaken] at htaken'
      cases htaken'
    · rintro ⟨hclass, rfl, integer, rfl⟩
      exact ⟨hclass, index, integer, hkind, by rw [argumentAt?, hvalue, Option.some_or]⟩

/-- Arguments that are accepted are bound. -/
theorem exists_bindTo_of_accepts (hrequired : descriptor.required ≤ descriptor.kinds.length)
    (hdefaults : descriptor.kinds.length = defaults.length)
    (hnames : ∀ listed ∈ names, listed.length = descriptor.kinds.length)
    (haccepts : Accepts descriptor names positional ((keywords.map heap.entries).getD .empty)) :
    ∃ values, bindTo heap (of heap positional keywords) descriptor names defaults = .ok values := by
  have hconcludes := bindTo_concludes heap positional keywords hrequired hdefaults hnames
  cases hbound : bindTo heap (of heap positional keywords) descriptor names defaults with
  | ok values => exact ⟨values, rfl⟩
  | error exception =>
    rw [hbound] at hconcludes
    exact absurd haccepts hconcludes.1

/-- Arguments that are not accepted are refused with an exception. -/
theorem exists_bindTo_of_not_accepts (hrequired : descriptor.required ≤ descriptor.kinds.length)
    (hdefaults : descriptor.kinds.length = defaults.length)
    (hnames : ∀ listed ∈ names, listed.length = descriptor.kinds.length)
    (hrefused : ¬Accepts descriptor names positional ((keywords.map heap.entries).getD .empty)) :
    ∃ exception,
      bindTo heap (of heap positional keywords) descriptor names defaults = .error exception ∧
        Faults descriptor names positional ((keywords.map heap.entries).getD .empty) exception := by
  have hconcludes := bindTo_concludes heap positional keywords hrequired hdefaults hnames
  cases hbound : bindTo heap (of heap positional keywords) descriptor names defaults with
  | ok values =>
    rw [hbound] at hconcludes
    exact absurd hconcludes.1 hrefused
  | error exception =>
    rw [hbound] at hconcludes
    exact ⟨exception, rfl, hconcludes.2⟩

theorem bindTo_eq_ok_iff (hrequired : descriptor.required ≤ descriptor.kinds.length)
    (hdefaults : descriptor.kinds.length = defaults.length)
    (hnames : ∀ listed ∈ names, listed.length = descriptor.kinds.length) (values : List Value) :
    bindTo heap (of heap positional keywords) descriptor names defaults = .ok values ↔
      Accepts descriptor names positional ((keywords.map heap.entries).getD .empty) ∧
        Bound descriptor names defaults positional ((keywords.map heap.entries).getD .empty)
          values := by
  have hconcludes := bindTo_concludes heap positional keywords hrequired hdefaults hnames
  cases hbound : bindTo heap (of heap positional keywords) descriptor names defaults with
  | ok others =>
    rw [hbound] at hconcludes
    obtain ⟨haccepts, hothers⟩ := hconcludes
    constructor
    · rintro hsame
      rw [← Except.ok.inj hsame]
      exact ⟨haccepts, hothers⟩
    · rintro ⟨-, hvalues⟩
      refine congrArg Except.ok (List.ext_getElem? fun index ↦ ?_)
      by_cases hindex : index < descriptor.kinds.length
      · have hkind := List.getElem?_eq_getElem hindex
        rw [hothers.2 index _ hkind, hvalues.2 index _ hkind]
      · rw [List.getElem?_eq_none (by rw [hothers.1]; omega),
          List.getElem?_eq_none (by rw [hvalues.1]; omega)]
  | error exception =>
    rw [hbound] at hconcludes
    exact iff_of_false (fun hsame ↦ nomatch hsame) fun haccepts ↦ hconcludes.1 haccepts.1

/-- Only what is found under the keys matters, not their order. -/
theorem argumentAt?_congr (positional : List Value) (names : Option (List String))
    {given other : Entries Value}
    (hsame : ∀ key, other.find? key = given.find? key) :
    argumentAt? positional names other = argumentAt? positional names given := by
  funext index
  unfold argumentAt?
  refine congrArg _ (Option.bind_congr fun listed _ ↦ Option.bind_congr fun key _ ↦ ?_)
  exact if_congr Iff.rfl (hsame key) rfl

theorem Accepts.congr {positional : List Value} {given other : Entries Value}
    (hsame : ∀ key, other.find? key = given.find? key)
    (haccepts : Accepts descriptor names positional given) :
    Accepts descriptor names positional other where
  few := haccepts.few
  taken := haccepts.taken
  placed := fun key value hvalue ↦ haccepts.placed key value (hsame key ▸ hvalue)
  filled := argumentAt?_congr _ _ hsame ▸ haccepts.filled

theorem Bound.congr {positional : List Value} {given other : Entries Value} {values : List Value}
    (hsame : ∀ key, other.find? key = given.find? key)
    (hbound : Bound descriptor names defaults positional given values) :
    Bound descriptor names defaults positional other values :=
  ⟨hbound.1, argumentAt?_congr _ _ hsame ▸ hbound.2⟩

end

/-! ### Descriptors and arguments as texts and codes -/

section

variable {format : String} {codes : List Char} {positional : List Value}
  {names : Option (List String)} {given : Entries Value} {defaults : List Value}

/-- The descriptor that a text with these codes and this name is read as. -/
def described (codes : List Char) (name : String) : Descriptor :=
  ⟨name, codes.filterMap Descriptor.kindOf?, (codes.takeWhile (· ≠ '|')).length⟩

/-- Acceptance in terms of the codes. -/
theorem accepts_described_iff (name : String) (names : Option (List String))
    (positional : List Value) (given : Entries Value)
    (hknown : ∀ code ∈ codes, code ∈ Descriptor.alphabet) :
    Accepts (described codes name) names positional given ↔
      positional.length ≤ (codes.filter (· ≠ '|')).length ∧
        (∀ (index : Nat) code value, (codes.filter (· ≠ '|'))[index]? = some code →
          positional[index]? = some value → ∃ result, Descriptor.Converts code value result) ∧
        (∀ key value, given.find? key = some value →
          ∃ listed ∈ names, key ∈ listed ∧ positional.length ≤ listed.idxOf key ∧
            ∃ code result, (codes.filter (· ≠ '|'))[listed.idxOf key]? = some code ∧
              Descriptor.Converts code value result) ∧
        ∀ index < (codes.takeWhile (· ≠ '|')).length,
          (argumentAt? positional names given index).isSome := by
  have hlength := Descriptor.length_filterMap_kindOf? hknown
  have hkinds : ∀ (index : Nat) (value : Value),
      (∃ kind, (described codes name).kinds[index]? = some kind ∧ (kind.taken? value).isSome) ↔
      ∃ code result, (codes.filter (· ≠ '|'))[index]? = some code ∧
        Descriptor.Converts code value result := by
    intro index value
    constructor
    · rintro ⟨kind, hkind, htaken⟩
      obtain ⟨code, hcode, hkindOf⟩ :=
        (Descriptor.getElem?_filterMap_kindOf? hknown index kind).mp hkind
      obtain ⟨result, hresult⟩ := Option.isSome_iff_exists.mp htaken
      exact ⟨code, result, hcode, (Descriptor.converts_iff hkindOf value result).mpr hresult⟩
    · rintro ⟨code, result, hcode, hconverts⟩
      obtain ⟨kind, hkindOf, hkind⟩ := Descriptor.exists_kindOf?_of_getElem? hknown hcode
      exact ⟨kind, hkind, Option.isSome_iff_exists.mpr
        ⟨result, (Descriptor.converts_iff hkindOf value result).mp hconverts⟩⟩
  constructor
  · rintro ⟨hfew, htaken, hplaced, hfilled⟩
    refine ⟨hlength ▸ hfew, fun index code value hcode hvalue ↦ ?_, fun key value hvalue ↦ ?_,
      hfilled⟩
    · obtain ⟨kind, -, hkind⟩ := Descriptor.exists_kindOf?_of_getElem? hknown hcode
      obtain ⟨other, result, hother, hconverts⟩ :=
        (hkinds index value).mp ⟨kind, hkind, htaken index kind value hkind hvalue⟩
      rw [Option.some.inj (hcode.symm.trans hother)]
      exact ⟨result, hconverts⟩
    · obtain ⟨listed, hlisted, hkey, hfree, htakes⟩ := hplaced key value hvalue
      exact ⟨listed, hlisted, hkey, List.getElem?_eq_none_iff.mp hfree, (hkinds _ value).mp htakes⟩
  · rintro ⟨hfew, htaken, hplaced, hfilled⟩
    refine ⟨hlength.symm ▸ hfew, fun index kind value hkind hvalue ↦ ?_, fun key value hvalue ↦ ?_,
      hfilled⟩
    · obtain ⟨code, hcode, -⟩ :=
        (Descriptor.getElem?_filterMap_kindOf? hknown index kind).mp hkind
      obtain ⟨result, hconverts⟩ := htaken index code value hcode hvalue
      obtain ⟨other, hother, hisSome⟩ := (hkinds index value).mpr ⟨code, result, hcode, hconverts⟩
      rw [Option.some.inj (hkind.symm.trans hother)]
      exact hisSome
    · obtain ⟨listed, hlisted, hkey, hfree, htakes⟩ := hplaced key value hvalue
      exact ⟨listed, hlisted, hkey, List.getElem?_eq_none_iff.mpr hfree,
        (hkinds _ value).mpr htakes⟩

theorem bind_eq (heap : Heap) (arguments : Arguments) {descriptor : Descriptor}
    (hread : Descriptor.read format = .ok descriptor)
    (hlength : descriptor.kinds.length = defaults.length) :
    arguments.bind heap format names defaults =
      orRaised (arguments.bindTo heap descriptor names defaults) := by
  rw [bind, hread]
  show (if descriptor.kinds.length ≠ defaults.length then _ else _) = _
  rw [if_neg (not_not_intro hlength)]

/-- Without a descriptor for as many parameters as there are defaults, binding fails internally. -/
theorem exists_of_not_describes (heap : Heap) (arguments : Arguments)
    (hnone : ¬∃ codes name, Descriptor.Describes format codes name ∧
      (codes.filter (· ≠ '|')).length = defaults.length) :
    ∃ message, arguments.bind heap format names defaults = .error (.internal message) := by
  cases hread : Descriptor.read format with
  | error failure =>
    obtain ⟨message, rfl⟩ := Descriptor.exists_of_read_eq_error hread
    rw [bind, hread]
    exact ⟨message, rfl⟩
  | ok descriptor =>
    obtain ⟨codes, hdescribes, hkinds, -⟩ := (Descriptor.read_eq_ok_iff format descriptor).mp hread
    have hlength : descriptor.kinds.length ≠ defaults.length := by
      rw [hkinds, Descriptor.length_filterMap_kindOf? hdescribes.mem_alphabet]
      exact fun hlength ↦ hnone ⟨codes, _, hdescribes, hlength⟩
    rw [bind, hread]
    show ∃ message, (if descriptor.kinds.length ≠ defaults.length then _ else _) = _
    rw [if_pos hlength]
    exact ⟨_, rfl⟩

/-- Binding arguments against a descriptor, for all texts, names, defaults and arguments. The
failure is internal exactly if the text does not consist of codes for as many parameters as there
are defaults, a colon and a name, whatever the arguments are. Otherwise there is a result exactly
if there are not too many positional arguments, each of them converts at its code, each keyword is
a listed name whose first place no positional argument fills and converts at its code there (so
that there are no keywords without a list of names), and each parameter before the bar is given.
Then each parameter has the converted argument for it, or else its default; the order of the
keywords does not matter. All other failures are exceptions: type errors, or an overflow for an
integer that is too large for its code. -/
theorem bind_specified (heap : Heap) (format : String) (names : Option (List String))
    (defaults : List Value) (hnames : ∀ listed ∈ names, listed.length = defaults.length)
    (positional : List Value) (keywords : Option Address) :
    let outcome := fun keywords ↦
      bind heap (.of heap positional keywords) format names defaults
    let entries := fun keywords : Option Address ↦ (keywords.map heap.entries).getD .empty
    let given := entries keywords
    let Describes := fun codes name ↦ Descriptor.Describes format codes name ∧
      (codes.filter (· ≠ '|')).length = defaults.length
    ((∃ message, outcome keywords = .error (.internal message)) ↔
        ¬∃ codes name, Describes codes name) ∧
      ∀ codes name, Describes codes name →
        let parameters := codes.filter (· ≠ '|')
        let required := codes.takeWhile (· ≠ '|')
        let accepted := positional.length ≤ defaults.length ∧
          (∀ (index : Nat) code value, parameters[index]? = some code →
            positional[index]? = some value → ∃ result, Descriptor.Converts code value result) ∧
          (∀ key value, given.find? key = some value →
            ∃ listed ∈ names, key ∈ listed ∧ positional.length ≤ listed.idxOf key ∧
              ∃ code result, parameters[listed.idxOf key]? = some code ∧
                Descriptor.Converts code value result) ∧
          ∀ index < required.length, (argumentAt? positional names given index).isSome
        ((∃ values, outcome keywords = .ok values) ↔ accepted) ∧
          (∀ values, outcome keywords = .ok values → values.length = defaults.length ∧
            ∀ (index : Nat) code, parameters[index]? = some code →
              match argumentAt? positional names given index with
              | some value => ∃ result, Descriptor.Converts code value result ∧
                values[index]? = some result
              | none => values[index]? = defaults[index]?) ∧
          (∀ other, (∀ key, (entries other).find? key = given.find? key) →
            ∀ values, outcome other = .ok values ↔ outcome keywords = .ok values) ∧
          (¬accepted → ∃ exception, outcome keywords = .error (.raised exception) ∧
            (exception.cls = .typeError ∨ exception.cls = .overflowError ∧
              ∃ (index : Nat) (integer : Int), parameters[index]? = some 'i' ∧
                argumentAt? positional names given index = some (.long integer))) := by
  intro outcome entries given Describes
  have hread : ∀ codes name, Describes codes name → Descriptor.read format =
      .ok (described codes name) ∧ (described codes name).kinds.length = defaults.length := by
    rintro codes name ⟨hdescribes, hlength⟩
    exact ⟨(Descriptor.read_eq_ok_iff format _).mpr ⟨codes, hdescribes, rfl, rfl⟩,
      (Descriptor.length_filterMap_kindOf? hdescribes.mem_alphabet).trans hlength⟩
  refine ⟨⟨?_, exists_of_not_describes heap _⟩, fun codes name hdescribes ↦ ?_⟩
  · rintro ⟨message, hinternal⟩ ⟨codes, name, hdescribes⟩
    obtain ⟨hdescriptor, hlength⟩ := hread codes name hdescribes
    exact regular_bind hdescriptor hlength message hinternal
  intro parameters required accepted
  obtain ⟨hdescriptor, hlength⟩ := hread codes name hdescribes
  obtain ⟨hdescribes, hparameters⟩ := hdescribes
  have hknown := hdescribes.mem_alphabet
  have hrequired : (described codes name).required ≤ (described codes name).kinds.length :=
    (Descriptor.length_takeWhile_le codes).trans
      (Descriptor.length_filterMap_kindOf? hknown).symm.le
  have hlisted : ∀ listed ∈ names, listed.length = (described codes name).kinds.length :=
    fun listed hmem ↦ (hnames listed hmem).trans hlength.symm
  have houtcome : ∀ keywords, outcome keywords = orRaised (bindTo heap (of heap positional keywords)
      (described codes name) names defaults) := fun keywords ↦ bind_eq heap _ hdescriptor hlength
  have hok : ∀ keywords values, outcome keywords = .ok values ↔
      Accepts (described codes name) names positional (entries keywords) ∧
        Bound (described codes name) names defaults positional (entries keywords) values := by
    intro keywords values
    rw [← bindTo_eq_ok_iff heap positional keywords hrequired hlength hlisted, houtcome]
    exact ⟨orRaised_eq_ok, fun hbound ↦ by rw [hbound]; rfl⟩
  have haccepted : Accepts (described codes name) names positional given ↔ accepted := by
    have haccepts := accepts_described_iff name names positional given hknown
    rw [hparameters] at haccepts
    exact haccepts
  refine ⟨⟨?_, fun haccepts ↦ ?_⟩, fun values hvalues ↦ ?_, fun other hsame values ↦ ?_,
    fun hrefused ↦ ?_⟩
  · rintro ⟨values, hvalues⟩
    exact haccepted.mp ((hok keywords values).mp hvalues).1
  · obtain ⟨values, hbound⟩ := exists_bindTo_of_accepts heap positional keywords hrequired
      hlength hlisted (haccepted.mpr haccepts)
    exact ⟨values, by rw [houtcome, hbound]; rfl⟩
  · obtain ⟨haccepts, hsize, hplaces⟩ := (hok keywords values).mp hvalues
    refine ⟨hsize, fun index code hcode ↦ ?_⟩
    obtain ⟨kind, hkindOf, hkind⟩ := Descriptor.exists_kindOf?_of_getElem? hknown hcode
    have hplace := hplaces index kind hkind
    cases hargument : argumentAt? positional names given index with
    | none => rwa [hargument, Option.bind_none, Option.none_or] at hplace
    | some value =>
      obtain ⟨result, hresult⟩ :=
        Option.isSome_iff_exists.mp (haccepts.isSome_taken? hkind hargument)
      rw [hargument, Option.bind_some, hresult, Option.some_or] at hplace
      exact ⟨result, (Descriptor.converts_iff hkindOf value result).mpr hresult, hplace⟩
  · rw [hok, hok]
    exact ⟨fun hother ↦ ⟨hother.1.congr fun key ↦ (hsame key).symm,
        hother.2.congr fun key ↦ (hsame key).symm⟩,
      fun hgiven ↦ ⟨hgiven.1.congr hsame, hgiven.2.congr hsame⟩⟩
  · obtain ⟨exception, hfault, hblames⟩ := exists_bindTo_of_not_accepts heap positional keywords
      hrequired hlength hlisted fun haccepts ↦ hrefused (haccepted.mp haccepts)
    refine ⟨exception, by rw [houtcome, hfault]; rfl, hblames.imp_right ?_⟩
    rintro ⟨hclass, index, integer, hkind, hargument⟩
    obtain ⟨code, hcode, hinteger⟩ :=
      (Descriptor.getElem?_filterMap_kindOf? hknown index .integer).mp hkind
    rw [Descriptor.eq_of_kindOf?_eq_integer hinteger] at hcode
    exact ⟨hclass, index, integer, hcode, hargument⟩

end

end

/-! ### Three required parameters and an optional one -/

namespace OptionalFlags

/-- The descriptor. -/
def format : String := "Oss|i:compile"

/-- The names of the parameters. -/
def names : List String := ["source", "filename", "mode", "flags"]

/-- The defaults, of which only the last one is used. -/
def defaults : List Value := [.null, .null, .null, .int 0]

/-- A dict of keywords that gives the third parameter. -/
def heap : Heap := Heap.empty.allocate (.dict (Entries.empty.insert "mode" (.text "eval")))

/-- The outcome for two positional arguments. -/
def outcome (format : String) : Except Failure (List Value) :=
  bind heap (.of heap [.int 1, .text "<f>"] (some 0)) format (some names) defaults

theorem eq_of_find? {key : String} {value : Value}
    (hvalue : (heap.entries 0).find? key = some value) : key = "mode" ∧ value = .text "eval" := by
  have hentries : heap.entries 0 = Entries.empty.insert "mode" (.text "eval") := rfl
  rw [hentries, Entries.find?_insert] at hvalue
  split at hvalue
  · rename_i hkey
    exact ⟨hkey, (Option.some.inj hvalue).symm⟩
  · cases hvalue

end OptionalFlags

/-- Two arguments by position, one by keyword and one by default; a second bar makes the descriptor
unreadable. -/
theorem bind_specified_optional :
    (∀ listed ∈ some OptionalFlags.names, listed.length = OptionalFlags.defaults.length) ∧
      (∃ values, OptionalFlags.outcome OptionalFlags.format = .ok values ∧
        values[1]? = some (.text "<f>") ∧ values[2]? = some (.text "eval") ∧
          values[3]? = some (.int 0)) ∧
      ∃ message, OptionalFlags.outcome "Oss|i|:compile" = .error (.internal message) := by
  have hnames : ∀ listed ∈ some OptionalFlags.names,
      listed.length = OptionalFlags.defaults.length := by
    rintro listed hlisted
    rw [← Option.some.inj hlisted]
    rfl
  refine ⟨hnames, ?_, ?_⟩
  · obtain ⟨-, hspecified⟩ := bind_specified OptionalFlags.heap OptionalFlags.format
      (some OptionalFlags.names) OptionalFlags.defaults hnames [.int 1, .text "<f>"] (some 0)
    obtain ⟨hresult, hvalues, -⟩ := hspecified ['O', 's', 's', '|', 'i'] "compile"
      ⟨⟨by decide, by simp [Descriptor.alphabet], by decide⟩, by decide⟩
    have hpositional : ∀ (index : Nat) code value, ['O', 's', 's', 'i'][index]? = some code →
        [Value.int 1, .text "<f>"][index]? = some value →
        ∃ result, Descriptor.Converts code value result := by
      intro index code value hcode hvalue
      match index with
      | 0 =>
        cases hcode
        exact ⟨value, .any value⟩
      | 1 =>
        cases hcode
        cases hvalue
        exact ⟨_, .text _⟩
      | _ + 2 => cases hvalue
    have hkeywords : ∀ key value, (OptionalFlags.heap.entries 0).find? key = some value →
        ∃ listed ∈ some OptionalFlags.names, key ∈ listed ∧ 2 ≤ listed.idxOf key ∧
          ∃ code result, ['O', 's', 's', 'i'][listed.idxOf key]? = some code ∧
            Descriptor.Converts code value result := by
      intro key value hvalue
      obtain ⟨rfl, rfl⟩ := OptionalFlags.eq_of_find? hvalue
      exact ⟨_, rfl, by decide, by decide, 's', _, by decide, .text _⟩
    obtain ⟨values, hbound⟩ := hresult.mpr ⟨by decide, hpositional, hkeywords, by decide⟩
    obtain ⟨-, hplaces⟩ := hvalues values hbound
    obtain ⟨_, hsecond, hfilename⟩ := hplaces 1 's' rfl
    obtain ⟨_, hthird, hmode⟩ := hplaces 2 's' rfl
    cases hsecond
    cases hthird
    exact ⟨values, hbound, hfilename, hmode, hplaces 3 'i' rfl⟩
  · obtain ⟨hinternal, -⟩ := bind_specified OptionalFlags.heap "Oss|i|:compile"
      (some OptionalFlags.names) OptionalFlags.defaults hnames [.int 1, .text "<f>"] (some 0)
    refine hinternal.mpr ?_
    rintro ⟨codes, name, hdescribes, -⟩
    have hread := (Descriptor.read_eq_ok_iff _ (described codes name)).mpr
      ⟨codes, hdescribes, rfl, rfl⟩
    cases hread

end Arguments

end Metaobject
