import Mathlib.Logic.Function.Basic
import Metaobject.Proofs.Arguments.Descriptor
import Metaobject.Proofs.Entries

/-!
# The slots of parameters

Three passes bind arguments against a descriptor, and they keep one invariant: the slots hold,
converted, what has been supplied for the parameters so far (`Arguments.Hold`). Positional arguments
supply the first parameters (`Arguments.bindPositional_concludes`), keywords the first parameter of
their name (`Arguments.bindKeywords_concludes`), and defaults fill what is left
(`Arguments.fill_concludes`). Each pass either keeps the invariant or fails with an exception at an
argument that has no place.
-/

set_option autoImplicit false
set_option relaxedAutoImplicit false

namespace Metaobject

/-! ### Outcomes -/

/-- Whether an outcome is a result of one kind or a fault of another. -/
def Concludes {Fault Result : Type} (gives : Result → Prop) (fails : Fault → Prop) :
    Except Fault Result → Prop
  | .ok result => gives result
  | .error fault => fails fault

namespace Concludes

variable {Fault First Second : Type} {gives : First → Prop} {fails others : Fault → Prop}
  {outcome : Except Fault First}

theorem bind (houtcome : Concludes gives fails outcome) {last : Second → Prop}
    {next : First → Except Fault Second}
    (hnext : ∀ result, gives result → Concludes last others (next result))
    (hfails : ∀ fault, fails fault → others fault) : Concludes last others (outcome >>= next) := by
  cases outcome with
  | ok result => exact hnext result houtcome
  | error fault => exact hfails fault houtcome

theorem mono (houtcome : Concludes gives fails outcome) {last : First → Prop}
    (hgives : ∀ result, gives result → last result) (hfails : ∀ fault, fails fault → others fault) :
    Concludes last others outcome := by
  cases outcome with
  | ok result => exact hgives result houtcome
  | error fault => exact hfails fault houtcome

end Concludes

namespace Arguments

section

variable {heap : Heap} {name : String} {descriptor : Descriptor} {kinds : List ParameterKind}
  {supply : Nat → Option Value} {slots : Slots}

/-! ### Slots -/

/-- Whether the slots hold what is supplied for the parameters, and each parameter takes it. -/
structure Hold (kinds : List ParameterKind) (supply : Nat → Option Value) (slots : Slots) :
    Prop where
  slot : ∀ index : Nat,
    slots[index]? = kinds[index]?.map fun kind ↦ (supply index).bind kind.taken?
  taken : ∀ (index : Nat) kind value, kinds[index]? = some kind → supply index = some value →
    (kind.taken? value).isSome

theorem Hold.length_eq (hhold : Hold kinds supply slots) : slots.length = kinds.length := by
  have hsame : ∀ index : Nat, slots.length ≤ index ↔ kinds.length ≤ index := fun index ↦ by
    rw [← List.getElem?_eq_none_iff, ← List.getElem?_eq_none_iff, hhold.slot,
      Option.map_eq_none_iff]
  exact Nat.le_antisymm ((hsame _).mpr (Nat.le_refl _)) ((hsame _).mp (Nat.le_refl _))

theorem Hold.slot_eq_some_none_iff (hhold : Hold kinds supply slots) {index : Nat}
    (hindex : index < kinds.length) : slots[index]? = some none ↔ supply index = none := by
  have hkind := List.getElem?_eq_getElem hindex
  rw [hhold.slot, hkind, Option.map_some, Option.some.injEq]
  cases hsupply : supply index with
  | none => exact iff_of_true rfl rfl
  | some value =>
    refine iff_of_false (fun hnone ↦ ?_) (fun hnone ↦ nomatch hnone)
    have htaken := hhold.taken index _ value hkind hsupply
    rw [Option.bind_some] at hnone
    rw [hnone] at htaken
    cases htaken

/-- Supplying one more parameter. -/
theorem Hold.set (hhold : Hold kinds supply slots) {index : Nat} {kind : ParameterKind}
    {value result : Value} (hkind : kinds[index]? = some kind)
    (htaken : kind.taken? value = some result) :
    Hold kinds (Function.update supply index (some value)) (slots.set index (some result)) where
  slot := fun other ↦ by
    by_cases hsame : index = other
    · subst hsame
      have hindex : index < slots.length := by
        rw [hhold.length_eq]
        exact (List.getElem?_eq_some_iff.mp hkind).1
      rw [List.getElem?_set_self hindex, Function.update_self, hkind, Option.map_some,
        Option.bind_some, htaken]
    · rw [List.getElem?_set_ne hsame, Function.update_of_ne (Ne.symm hsame), hhold.slot]
  taken := fun other kind' value' hkind' hvalue' ↦ by
    by_cases hsame : index = other
    · subst hsame
      rw [Function.update_self] at hvalue'
      rw [hkind] at hkind'
      rw [← Option.some.inj hkind', ← Option.some.inj hvalue', htaken]
      rfl
    · rw [Function.update_of_ne (Ne.symm hsame)] at hvalue'
      exact hhold.taken other kind' value' hkind' hvalue'

/-! ### By position -/

/-- Positional arguments supply the first parameters, unless one of them is not taken. -/
theorem bindPositional_concludes (position : Nat) (values : List Value) :
    Concludes (Hold kinds (values[·]?))
      (fun exception ↦ ∃ (index : Nat) (kind : ParameterKind) (value : Value),
        kinds[index]? = some kind ∧ values[index]? = some value ∧ kind.taken? value = none ∧
          kind.Refuses value exception)
      (bindPositional heap name position kinds values) := by
  induction kinds generalizing position values with
  | nil => exact ⟨fun _ ↦ rfl, fun _ _ _ hkind ↦ nomatch hkind⟩
  | cons kind kinds ih =>
    cases values with
    | nil =>
      refine ⟨fun index ↦ ?_, fun _ _ _ _ hvalue ↦ nomatch hvalue⟩
      rw [List.getElem?_map]
      rfl
    | cons value values =>
      rw [bindPositional]
      cases htaken : kind.taken? value with
      | none =>
        obtain ⟨exception, hconvert, hrefuses⟩ :=
          ParameterKind.exists_of_not_taken heap name (.position position) htaken
        rw [hconvert]
        exact ⟨0, kind, value, rfl, rfl, htaken, hrefuses⟩
      | some result =>
        rw [ParameterKind.convert_of_taken? htaken]
        refine (ih (position + 1) values).bind (fun slots hhold ↦ ?_) ?_
        · refine ⟨fun index ↦ ?_, fun index other given hkind hgiven ↦ ?_⟩
          · cases index with
            | zero => exact congrArg some htaken.symm
            | succ index => exact hhold.slot index
          · cases index with
            | zero =>
              rw [← Option.some.inj hkind, ← Option.some.inj hgiven, htaken]
              rfl
            | succ index => exact hhold.taken index other given hkind hgiven
        · rintro exception ⟨index, other, given, hkind, hgiven, hrefused⟩
          exact ⟨index + 1, other, given, hkind, hgiven, hrefused⟩

/-! ### By keyword -/

/-- The keyword argument for the parameter at a place: what is given under its name, if this is the
first place of the name. -/
def keywordAt? (names : List String) (pairs : List (String × Value)) (index : Nat) : Option Value :=
  names[index]?.bind fun key ↦ if names.idxOf key = index then pairs.lookup key else none

theorem findIdx?_eq_some_iff_idxOf (names : List String) (key : String) (index : Nat) :
    names.findIdx? (· = key) = some index ↔ key ∈ names ∧ names.idxOf key = index := by
  rw [List.findIdx?_eq_some_iff_findIdx_eq]
  show index < names.length ∧ names.idxOf key = index ↔ _
  rw [← List.idxOf_lt_length_iff]
  exact and_congr_left fun hindex ↦ by rw [hindex]

theorem keywordAt?_nil (names : List String) (index : Nat) : keywordAt? names [] index = none := by
  unfold keywordAt?
  cases names[index]? with
  | none => rfl
  | some key => exact ite_self none

theorem keywordAt?_idxOf {names : List String} {key : String} (hkey : key ∈ names)
    (pairs : List (String × Value)) :
    keywordAt? names pairs (names.idxOf key) = pairs.lookup key := by
  rw [keywordAt?, List.getElem?_idxOf hkey, Option.bind_some, if_pos rfl]

/-- A keyword supplies the first parameter of its name. -/
theorem keywordAt?_cons {names : List String} {key : String} (hkey : key ∈ names) (value : Value)
    (rest : List (String × Value)) :
    keywordAt? names ((key, value) :: rest) =
      Function.update (keywordAt? names rest) (names.idxOf key) (some value) := by
  funext index
  by_cases hindex : index = names.idxOf key
  · subst hindex
    rw [Function.update_self, keywordAt?_idxOf hkey, Entries.lookup_cons_self]
  · rw [Function.update_of_ne hindex, keywordAt?, keywordAt?]
    refine Option.bind_congr fun other _ ↦ ?_
    by_cases hfirst : names.idxOf other = index
    · have hdiffer : other ≠ key := fun hsame ↦ hindex (hsame ▸ hfirst.symm)
      rw [if_pos hfirst, if_pos hfirst, Entries.lookup_cons_ne _ _ hdiffer]
    · rw [if_neg hfirst, if_neg hfirst]

/-- What a first keyword supplies may be supplied before the others. -/
theorem or_keywordAt?_cons {names : List String} {key : String} (hkey : key ∈ names)
    (hfree : supply (names.idxOf key) = none) (value : Value) (rest : List (String × Value))
    (index : Nat) :
    (supply index).or (keywordAt? names ((key, value) :: rest) index) =
      (Function.update supply (names.idxOf key) (some value) index).or
        (keywordAt? names rest index) := by
  rw [keywordAt?_cons hkey]
  by_cases hindex : index = names.idxOf key
  · rw [hindex, hfree, Function.update_self, Function.update_self, Option.none_or, Option.some_or]
  · rw [Function.update_of_ne hindex, Function.update_of_ne hindex]

/-- Another name has another first place. -/
theorem update_idxOf_of_ne (supply : Nat → Option Value) {names : List String}
    {key other : String} (hother : other ∈ names) (hdiffer : other ≠ key) (value : Option Value) :
    Function.update supply (names.idxOf key) value (names.idxOf other) =
      supply (names.idxOf other) :=
  Function.update_of_ne (fun hsame ↦ hdiffer ((List.idxOf_inj hother).mp hsame)) _ _

/-- Whether a keyword names a parameter that nothing is supplied for, and that takes its value. -/
def Placed (kinds : List ParameterKind) (names : List String) (supply : Nat → Option Value)
    (key : String) (value : Value) : Prop :=
  key ∈ names ∧ supply (names.idxOf key) = none ∧
    ∃ kind, kinds[names.idxOf key]? = some kind ∧ (kind.taken? value).isSome

/-- Whether an exception tells why a keyword is not placed. -/
def Blames (kinds : List ParameterKind) (names : List String) (supply : Nat → Option Value)
    (key : String) (value : Value) (exception : Exception) : Prop :=
  exception.cls = .typeError ∨ exception.cls = .overflowError ∧ key ∈ names ∧
    supply (names.idxOf key) = none ∧ kinds[names.idxOf key]? = some .integer ∧
      ∃ integer, value = .long integer

/-- Keywords supply the first parameters of their names, unless one of them is not placed. -/
theorem bindKeywords_concludes {names : List String} {pairs : List (String × Value)}
    (hlength : names.length = descriptor.kinds.length) (hkeys : (pairs.map Prod.fst).Nodup)
    (hhold : Hold descriptor.kinds supply slots) :
    Concludes
      (fun final ↦ Hold descriptor.kinds (fun index ↦ (supply index).or
          (keywordAt? names pairs index)) final ∧
        ∀ pair ∈ pairs, Placed descriptor.kinds names supply pair.1 pair.2)
      (fun exception ↦ ∃ pair ∈ pairs, ¬Placed descriptor.kinds names supply pair.1 pair.2 ∧
        Blames descriptor.kinds names supply pair.1 pair.2 exception)
      (bindKeywords heap descriptor names slots pairs) := by
  -- The induction carries what is supplied: each keyword that is placed adds to it.
  induction pairs generalizing supply slots with
  | nil =>
    refine ⟨?_, fun _ hnone ↦ nomatch hnone⟩
    simp only [keywordAt?_nil, Option.or_none]
    exact hhold
  | cons pair rest ih =>
    obtain ⟨key, value⟩ := pair
    obtain ⟨hfresh, hkeys⟩ := List.nodup_cons.mp hkeys
    rw [bindKeywords]
    split
    · rename_i hunknown
      refine ⟨_, List.mem_cons_self, fun hplaced ↦ ?_, Or.inl rfl⟩
      have hknown := (findIdx?_eq_some_iff_idxOf names key _).mpr ⟨hplaced.1, rfl⟩
      rw [hunknown] at hknown
      cases hknown
    · rename_i index hindex
      obtain ⟨hkey, rfl⟩ := (findIdx?_eq_some_iff_idxOf names key index).mp hindex
      obtain ⟨kind, hkind⟩ : ∃ kind, descriptor.kinds[names.idxOf key]? = some kind := by
        have hbelow := List.idxOf_lt_length_iff.mpr hkey
        rw [hlength] at hbelow
        exact ⟨_, List.getElem?_eq_getElem hbelow⟩
      have hslot := hhold.slot (names.idxOf key)
      rw [hkind, Option.map_some] at hslot
      split
      · rename_i hfilled
        refine ⟨_, List.mem_cons_self, fun hplaced ↦ ?_, Or.inl rfl⟩
        rw [hslot, hplaced.2.1] at hfilled
        cases hfilled
      · rename_i hfree
        have hnone : supply (names.idxOf key) = none := by
          cases hsupply : supply (names.idxOf key) with
          | none => rfl
          | some other =>
            rw [hslot, hsupply] at hfree
            exact absurd (hhold.taken _ kind other hkind hsupply) hfree
        dsimp only
        rw [hkind, Option.getD_some]
        cases htaken : kind.taken? value with
        | none =>
          obtain ⟨exception, hconvert, hrefuses⟩ :=
            ParameterKind.exists_of_not_taken heap descriptor.name (.keyword key) htaken
          rw [hconvert]
          refine ⟨_, List.mem_cons_self, ?_, hrefuses.imp_right ?_⟩
          · rintro ⟨-, -, other, hother, htaken'⟩
            rw [Option.some.inj (hother.symm.trans hkind), htaken] at htaken'
            cases htaken'
          · rintro ⟨hclass, rfl, hlong⟩
            exact ⟨hclass, hkey, hnone, hkind, hlong⟩
        | some result =>
          rw [ParameterKind.convert_of_taken? htaken]
          -- The keys are distinct, so the later keywords are placed as if this one were not there.
          have hdiffer : ∀ pair ∈ rest, pair.1 ≠ key := fun pair hpair hsame ↦
            hfresh (List.mem_map.mpr ⟨pair, hpair, hsame⟩)
          refine (ih hkeys (hhold.set hkind htaken)).mono ?_ ?_
          · rintro final ⟨hfinal, hplaced⟩
            refine ⟨?_, List.forall_mem_cons.mpr ⟨⟨hkey, hnone, kind, hkind, ?_⟩, ?_⟩⟩
            · simp only [or_keywordAt?_cons hkey hnone]
              exact hfinal
            · rw [htaken]
              rfl
            · intro pair hpair
              obtain ⟨hnamed, hfree, htakes⟩ := hplaced pair hpair
              rw [update_idxOf_of_ne _ hnamed (hdiffer pair hpair)] at hfree
              exact ⟨hnamed, hfree, htakes⟩
          · rintro exception ⟨pair, hpair, hnot, hblames⟩
            refine ⟨pair, List.mem_cons_of_mem _ hpair, ?_, hblames.imp_right ?_⟩
            · rintro ⟨hnamed, hfree, htakes⟩
              rw [← update_idxOf_of_ne supply hnamed (hdiffer pair hpair) (some value)] at hfree
              exact hnot ⟨hnamed, hfree, htakes⟩
            · rintro ⟨hclass, hnamed, hfree, hlong⟩
              rw [update_idxOf_of_ne _ hnamed (hdiffer pair hpair)] at hfree
              exact ⟨hclass, hnamed, hfree, hlong⟩

/-! ### By default -/

theorem cls_missingFault (descriptor : Descriptor) (names : Option (List String))
    (count index : Nat) :
    (missingFault descriptor names count index).cls = .typeError := by
  unfold missingFault
  split
  · rfl
  · split
    · unfold Exception.wrongCount
      split <;> rfl
    · rfl

/-- Defaults fill the empty slots, unless one of them is required. -/
theorem fill_concludes (names : Option (List String)) (count index : Nat) {defaults : List Value}
    (hlength : slots.length = defaults.length) :
    Concludes
      (fun values ↦
        (∀ place : Nat, slots[place]? = some none → descriptor.required ≤ index + place) ∧
        values.length = defaults.length ∧
        ∀ place : Nat, values[place]? = defaults[place]?.map (slots[place]?.join).getD)
      (fun exception ↦ exception.cls = .typeError ∧
        ∃ place : Nat, slots[place]? = some none ∧ index + place < descriptor.required)
      (fill descriptor names count index slots defaults) := by
  induction slots generalizing index defaults with
  | nil =>
    obtain rfl := List.eq_nil_of_length_eq_zero hlength.symm
    exact ⟨fun _ hslot ↦ (nomatch hslot), rfl, fun _ ↦ rfl⟩
  | cons slot slots ih =>
    obtain ⟨default, defaults, rfl⟩ := List.exists_cons_of_length_eq_add_one hlength.symm
    have hrest := ih (index + 1) (Nat.succ.inj hlength)
    have hstep : (slot = none → descriptor.required ≤ index) → Concludes
        (fun values ↦ (∀ place : Nat, (slot :: slots)[place]? = some none →
            descriptor.required ≤ index + place) ∧
          values.length = (default :: defaults).length ∧
          ∀ place : Nat, values[place]? =
            (default :: defaults)[place]?.map ((slot :: slots)[place]?.join).getD)
        (fun exception ↦ exception.cls = .typeError ∧
          ∃ place : Nat, (slot :: slots)[place]? = some none ∧ index + place < descriptor.required)
        (fill descriptor names count (index + 1) slots defaults >>= fun rest ↦
          .ok (slot.getD default :: rest)) := by
      intro hslot
      refine hrest.bind ?_ ?_
      · rintro rest ⟨hrequired, hsame, hvalues⟩
        refine ⟨fun place hplace ↦ ?_, congrArg (· + 1) hsame, fun place ↦ ?_⟩
        · cases place with
          | zero => exact hslot (Option.some.inj hplace)
          | succ place =>
            have hlater := hrequired place hplace
            omega
        · cases place with
          | zero => rfl
          | succ place => exact hvalues place
      · rintro exception ⟨hclass, place, hplace, hrequired⟩
        exact ⟨hclass, place + 1, hplace, by omega⟩
    unfold fill
    cases slot with
    | some value => exact hstep fun hnone ↦ nomatch hnone
    | none =>
      dsimp only
      by_cases hindex : index < descriptor.required
      · rw [if_pos hindex]
        exact ⟨cls_missingFault descriptor names count index, 0, rfl, hindex⟩
      · rw [if_neg hindex]
        exact hstep fun _ ↦ Nat.not_lt.mp hindex

end

end Arguments

end Metaobject
