import Metaobject.Proofs.Arguments.Binding
import Metaobject.Proofs.Heap.Integers
import Metaobject.Proofs.Run.Collaborators

/-!
# Arguments by parameter

What is supplied for a parameter is the positional argument at its place, or else the keyword
argument of its name (`Arguments.suppliedFor`). Binding succeeds exactly if all arguments find a
place (`Arguments.Placeable`) and each parameter takes what is supplied for it
(`Arguments.Takes`), and all other arguments are refused with an exception
(`Arguments.concludes_bind`). An integer parameter is given a word (`Arguments.SuppliesWord`).
-/

set_option autoImplicit false
set_option relaxedAutoImplicit false

namespace Metaobject

/-- Whether an exception is one with which arguments are refused. -/
def Exception.IsRefusal (exception : Exception) : Prop :=
  exception.cls = .typeError ∨ exception.cls = .valueError ∨ exception.cls = .overflowError

namespace Arguments

/-! ### Places -/

/-- What is supplied for a parameter: the positional argument at its place, or else the keyword
argument of its name. -/
def suppliedFor (parameters : List String) (positional : List Value) (given : Entries Value)
    (parameter : String) : Option Value :=
  positional[parameters.idxOf parameter]?.or (given.find? parameter)

/-- Whether all arguments find a place: there are not too many by position, each keyword names a
parameter that no positional argument fills, and the first `required` parameters are supplied. -/
structure Placeable (parameters : List String) (required : Nat) (positional : List Value)
    (given : Entries Value) : Prop where
  few : positional.length ≤ parameters.length
  placed : ∀ key, given.contains key →
    key ∈ parameters ∧ positional.length ≤ parameters.idxOf key
  filled : ∀ parameter ∈ parameters.take required,
    (suppliedFor parameters positional given parameter).isSome

/-- Whether each parameter takes what is supplied for it. -/
def Takes (kinds : List ParameterKind) (parameters : List String)
    (supplied : String → Option Value) : Prop :=
  ∀ pair ∈ kinds.zip parameters, ∀ value ∈ supplied pair.2, (pair.1.taken? value).isSome

/-- What the parameters are bound to: what each takes the argument supplied for it as, or else its
default. -/
def taken (kinds : List ParameterKind) (parameters : List String) (defaults : List Value)
    (supplied : String → Option Value) : List Value :=
  ((kinds.zip parameters).zip defaults).map fun ((kind, parameter), default) ↦
    ((supplied parameter).bind kind.taken?).getD default

section

variable {parameters : List String} {positional : List Value} {given : Entries Value}
  {descriptor : Descriptor} {defaults : List Value}

theorem argumentAt?_eq_suppliedFor (hnodup : parameters.Nodup) (positional : List Value)
    (given : Entries Value) {index : Nat} {parameter : String}
    (hparameter : parameters[index]? = some parameter) :
    argumentAt? positional (some parameters) given index =
      suppliedFor parameters positional given parameter := by
  obtain ⟨hindex, rfl⟩ := List.getElem?_eq_some_iff.mp hparameter
  have hplace : parameters.idxOf parameters[index] = index := hnodup.idxOf_getElem index hindex
  rw [argumentAt?, suppliedFor, hplace, Option.bind_some, keywordAt?, hparameter,
    Option.bind_some, if_pos hplace]
  rfl

theorem mem_zip_iff {kinds : List ParameterKind} {kind : ParameterKind} {parameter : String} :
    (kind, parameter) ∈ kinds.zip parameters ↔
      ∃ index : Nat, kinds[index]? = some kind ∧ parameters[index]? = some parameter := by
  simp only [List.mem_iff_getElem?, List.getElem?_zip_eq_some]

theorem takes_cons {kind : ParameterKind} {kinds : List ParameterKind} {parameter : String}
    {supplied : String → Option Value} :
    Takes (kind :: kinds) (parameter :: parameters) supplied ↔
      (∀ value ∈ supplied parameter, (kind.taken? value).isSome) ∧
        Takes kinds parameters supplied := by
  rw [Takes, List.zip_cons_cons, List.forall_mem_cons]
  rfl

theorem takes_nil {supplied : String → Option Value} : Takes [] [] supplied :=
  fun _ hpair ↦ absurd hpair List.not_mem_nil

/-- A parameter of any kind takes every value as it is. -/
theorem bind_taken?_any (supplied : Option Value) :
    supplied.bind ParameterKind.any.taken? = supplied :=
  Option.bind_fun_some supplied

/-- A descriptor accepts arguments that find a place and are taken there. -/
theorem accepts_iff_placeable (hnodup : parameters.Nodup)
    (hparameters : parameters.length = descriptor.kinds.length)
    (hrequired : descriptor.required ≤ descriptor.kinds.length) :
    Accepts descriptor (some parameters) positional given ↔
      Placeable parameters descriptor.required positional given ∧
        Takes descriptor.kinds parameters (suppliedFor parameters positional given) := by
  constructor
  · intro haccepts
    refine ⟨⟨hparameters ▸ haccepts.few, fun key hkey ↦ ?_, fun parameter hparameter ↦ ?_⟩, ?_⟩
    · obtain ⟨value, hvalue⟩ := (given.contains_iff key).mp hkey
      obtain ⟨listed, hlisted, hmem, hfree, -⟩ := haccepts.placed key value hvalue
      obtain rfl : parameters = listed := Option.some.inj hlisted
      exact ⟨hmem, List.getElem?_eq_none_iff.mp hfree⟩
    · obtain ⟨index, hindex, hplace⟩ := List.mem_take_iff_getElem.mp hparameter
      have hfilled := haccepts.filled index (hindex.trans_le (Nat.min_le_left _ _))
      rwa [argumentAt?_eq_suppliedFor hnodup positional given
        (List.getElem?_eq_some_iff.mpr ⟨_, hplace⟩)] at hfilled
    · rintro ⟨kind, parameter⟩ hpair value hvalue
      obtain ⟨index, hkind, hparameter⟩ := mem_zip_iff.mp hpair
      exact haccepts.isSome_taken? hkind
        ((argumentAt?_eq_suppliedFor hnodup positional given hparameter).trans hvalue)
  · rintro ⟨hplaceable, htakes⟩
    have htaken : ∀ (index : Nat) kind value, descriptor.kinds[index]? = some kind →
        argumentAt? positional (some parameters) given index = some value →
          (kind.taken? value).isSome := by
      intro index kind value hkind hvalue
      have hindex := (List.getElem?_eq_some_iff.mp hkind).1
      rw [← hparameters] at hindex
      have hparameter := List.getElem?_eq_getElem hindex
      rw [argumentAt?_eq_suppliedFor hnodup positional given hparameter] at hvalue
      exact htakes (kind, _) (mem_zip_iff.mpr ⟨index, hkind, hparameter⟩) value hvalue
    refine ⟨hparameters ▸ hplaceable.few, fun index kind value hkind hvalue ↦ ?_,
      fun key value hvalue ↦ ?_, fun index hindex ↦ ?_⟩
    · refine htaken index kind value hkind ?_
      rw [argumentAt?, hvalue, Option.some_or]
    · obtain ⟨hmem, hfree⟩ :=
        hplaceable.placed key ((given.contains_iff key).mpr ⟨value, hvalue⟩)
      have hnone : positional[parameters.idxOf key]? = none := List.getElem?_eq_none_iff.mpr hfree
      have hbelow := List.idxOf_lt_length_iff.mpr hmem
      rw [hparameters] at hbelow
      have hkind := List.getElem?_eq_getElem hbelow
      refine ⟨parameters, rfl, hmem, hnone, _, hkind, htaken _ _ value hkind ?_⟩
      rw [argumentAt?_eq_suppliedFor hnodup positional given (List.getElem?_idxOf hmem),
        suppliedFor, hnone, Option.none_or, hvalue]
    · have hparameter := List.getElem?_eq_getElem (show index < parameters.length by omega)
      rw [argumentAt?_eq_suppliedFor hnodup positional given hparameter]
      exact hplaceable.filled _ (List.mem_take_iff_getElem.mpr ⟨index, by omega, rfl⟩)

/-- What the parameters are bound to. -/
theorem Bound.eq_taken (hnodup : parameters.Nodup)
    (hparameters : parameters.length = descriptor.kinds.length)
    (hdefaults : descriptor.kinds.length = defaults.length) {values : List Value}
    (hbound : Bound descriptor (some parameters) defaults positional given values) :
    values = taken descriptor.kinds parameters defaults
      (suppliedFor parameters positional given) := by
  refine List.ext_getElem (by simp [taken, hbound.1, hparameters, hdefaults]) ?_
  intro index hindex _
  have hkinds : index < descriptor.kinds.length := by rw [hdefaults, ← hbound.1]; exact hindex
  have hplaces : index < parameters.length := by rwa [hparameters]
  have hvalue := hbound.2 index _ (List.getElem?_eq_getElem hkinds)
  rw [argumentAt?_eq_suppliedFor hnodup positional given (List.getElem?_eq_getElem hplaces),
    List.getElem?_eq_getElem hindex, List.getElem?_eq_getElem (hdefaults ▸ hkinds)] at hvalue
  simp only [taken, List.getElem_map, List.getElem_zip]
  cases hsupplied : (suppliedFor parameters positional given parameters[index]).bind
      descriptor.kinds[index].taken? with
  | none =>
    rw [hsupplied, Option.none_or] at hvalue
    exact Option.some.inj hvalue
  | some value =>
    rw [hsupplied, Option.some_or] at hvalue
    exact Option.some.inj hvalue

/-- Binding gives what the parameters take, or refuses arguments that do not find a place or are not
taken. -/
theorem concludes_bind (settings : Settings)
    (respond : {Answer : Type} → Request Answer → World → Ending Answer × World) (world : World)
    (positional : List Value) (keywords : Option Address) {format : String}
    (hread : Descriptor.read format = .ok descriptor) (hnodup : parameters.Nodup)
    (hparameters : parameters.length = descriptor.kinds.length)
    (hdefaults : descriptor.kinds.length = defaults.length)
    (hrequired : descriptor.required ≤ descriptor.kinds.length) :
    let given := (keywords.map world.heap.entries).getD .empty
    let supplied := suppliedFor parameters positional given
    let valid := Placeable parameters descriptor.required positional given ∧
      Takes descriptor.kinds parameters supplied
    (Program.ofFailure ((of world.heap positional keywords).bind world.heap format
      (some parameters) defaults)).Concludes settings respond world
        (fun values middle ↦
          (valid ∧ values = taken descriptor.kinds parameters defaults supplied) ∧ middle = world)
        (fun exception ↦ ¬valid ∧ exception.IsRefusal) := by
  intro given supplied valid
  have haccepts : Accepts descriptor (some parameters) positional given ↔ valid :=
    accepts_iff_placeable hnodup hparameters hrequired
  have hnames : ∀ listed ∈ some parameters, listed.length = descriptor.kinds.length :=
    fun listed hlisted ↦ Option.some.inj hlisted ▸ hparameters
  have hconcludes := bindTo_concludes world.heap positional keywords hrequired hdefaults hnames
  rw [bind_eq world.heap _ hread hdefaults]
  refine .ofFailure ?_
  cases hbound : (of world.heap positional keywords).bindTo world.heap descriptor
      (some parameters) defaults with
  | ok values =>
    rw [hbound] at hconcludes
    exact ⟨haccepts.mp hconcludes.1, hconcludes.2.eq_taken hnodup hparameters hdefaults⟩
  | error exception =>
    rw [hbound] at hconcludes
    obtain ⟨hrefused, hfaults⟩ := hconcludes
    exact ⟨exception, rfl, fun hvalid ↦ hrefused (haccepts.mpr hvalid),
      hfaults.imp_right fun hoverflow ↦ Or.inr hoverflow.1⟩

end

/-! ### Words -/

/-- The integer that is supplied for an integer parameter with a default. Truth values count as zero
and one, and a long integer is none that fits. -/
inductive SuppliesWord (default : Int) : Option Value → Int → Prop
  | absent : SuppliesWord default none default
  | truth (truth : Bool) : SuppliesWord default (some (.bool truth)) truth.toNat
  | word (word : Int64) : SuppliesWord default (some (.int word)) word.toInt

namespace SuppliesWord

variable {default integer other : Int} {supplied : Option Value}

theorem unique (hinteger : SuppliesWord default supplied integer)
    (hother : SuppliesWord default supplied other) : integer = other := by
  cases hinteger <;> cases hother <;> rfl

theorem isSome_taken? (hinteger : SuppliesWord default supplied integer) :
    ∀ value ∈ supplied, (ParameterKind.integer.taken? value).isSome := by
  rintro value hvalue
  cases hinteger <;> cases hvalue <;> rfl

/-- What an integer parameter takes, or its default, is a word. -/
theorem exists_of_taken (hdefault : Value.fitsWord default)
    (htaken : ∀ value ∈ supplied, (ParameterKind.integer.taken? value).isSome) :
    ∃ integer, SuppliesWord default supplied integer ∧
      ((supplied.bind ParameterKind.integer.taken?).getD (.ofInt default)).word? =
        some integer := by
  have hword : ∀ word : Int64, (Value.int word).word? = some word.toInt := fun word ↦
    Option.filter_eq_some_iff.mpr ⟨rfl, Value.fitsWord_toInt word⟩
  cases supplied with
  | none =>
    refine ⟨default, .absent, ?_⟩
    exact Option.filter_eq_some_iff.mpr ⟨Value.integer?_ofInt default, hdefault⟩
  | some value =>
    have hvalue := htaken value rfl
    cases value with
    | bool truth => exact ⟨_, .truth truth, by cases truth <;> exact hword _⟩
    | int word => exact ⟨_, .word word, hword word⟩
    | _ => cases hvalue

end SuppliesWord

theorem isSome_taken_text {supplied : Option Value} {content : String}
    (hsupplied : supplied = some (.text content)) :
    ∀ value ∈ supplied, (ParameterKind.text.taken? value).isSome := by
  rintro value hvalue
  obtain rfl := Option.some.inj (hsupplied.symm.trans hvalue)
  rfl

/-- What a text parameter takes is a text. -/
theorem exists_of_taken_text {supplied : Option Value} (hsupplied : supplied.isSome)
    (htaken : ∀ value ∈ supplied, (ParameterKind.text.taken? value).isSome) :
    ∃ content, supplied = some (.text content) := by
  obtain ⟨value, rfl⟩ := Option.isSome_iff_exists.mp hsupplied
  have hvalue := htaken value rfl
  cases value with
  | text content => exact ⟨content, rfl⟩
  | _ => cases hvalue

end Arguments

end Metaobject
