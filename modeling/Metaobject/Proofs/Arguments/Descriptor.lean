import Mathlib.Data.List.TakeWhile
import Metaobject.Arguments.Descriptor

/-!
# The grammar of argument descriptors

A text is a descriptor exactly if it is a list of codes with at most one bar, a colon and a name
(`Descriptor.Describes`). Exactly such texts can be read, and what is read are the kinds that the
codes other than the bar stand for, and the number of codes before the bar
(`Descriptor.read_eq_ok_iff`). What a code takes, and as what, does not depend on the place of the
argument (`ParameterKind.convert_eq_ok_iff`); an argument that it does not take is a type error, or
an overflow if it is an integer that is too large (`ParameterKind.refuses_of_convert`).
-/

set_option autoImplicit false
set_option relaxedAutoImplicit false

namespace Metaobject

namespace Descriptor

/-! ### Codes -/

/-- The characters of the codes of a descriptor. -/
def alphabet : List Char := ['O', 's', 'U', 'i', '|']

/-- Whether a text consists of codes with at most one bar, a colon and a name. The codes contain no
colon, so the colon is the first one of the text. -/
structure Describes (format : String) (codes : List Char) (name : String) : Prop where
  format_eq : format.toList = codes ++ ':' :: name.toList
  mem_alphabet : ∀ code ∈ codes, code ∈ alphabet
  count_bar_le : codes.count '|' ≤ 1

theorem kindOf?_isSome_iff (code : Char) :
    (kindOf? code).isSome ↔ code ∈ alphabet ∧ code ≠ '|' := by
  unfold kindOf? alphabet
  split
  case h_5 hany htext hunicode hinteger =>
    simp only [List.mem_cons, List.not_mem_nil, or_false]
    constructor
    · exact fun hnone ↦ nomatch hnone
    · rintro ⟨rfl | rfl | rfl | rfl | rfl, hbar⟩
      exacts [(hany rfl).elim, (htext rfl).elim, (hunicode rfl).elim, (hinteger rfl).elim,
        (hbar rfl).elim]
  all_goals decide

/-- Codes are read one by one as long as they are known and there is only one bar. -/
theorem readCodes_eq_ok_iff (format : String) (kinds : List ParameterKind) (bar : Option Nat)
    (codes : List Char) (result : List ParameterKind × Option Nat) :
    readCodes format kinds bar codes = .ok result ↔
      (∀ code ∈ codes, code ∈ alphabet) ∧ codes.count '|' + bar.toList.length ≤ 1 ∧
        result = (kinds ++ codes.filterMap kindOf?, bar.or (if '|' ∈ codes then
          some (kinds.length + (codes.takeWhile (· ≠ '|')).length) else none)) := by
  induction codes generalizing kinds bar with
  | nil =>
    have hbar : bar.toList.length ≤ 1 := by cases bar <;> simp
    simp [readCodes, hbar, eq_comm]
  | cons code rest ih =>
    rw [readCodes]
    cases hkind : kindOf? code with
    | some kind =>
      obtain ⟨hknown, hcode⟩ := (kindOf?_isSome_iff code).mp (by rw [hkind]; rfl)
      have hbars : (code :: rest).count '|' = rest.count '|' := List.count_cons_of_ne hcode
      have hmem : '|' ∈ code :: rest ↔ '|' ∈ rest := by
        rw [List.mem_cons, or_iff_right fun hbar ↦ hcode hbar.symm]
      have hbefore : (code :: rest).takeWhile (· ≠ '|') = code :: rest.takeWhile (· ≠ '|') :=
        List.takeWhile_cons_of_pos (decide_eq_true hcode)
      dsimp only
      rw [ih, List.forall_mem_cons, and_iff_right hknown, hbars, List.filterMap_cons, hkind,
        hbefore, List.append_assoc, List.length_append, if_congr hmem rfl rfl]
      simp only [List.singleton_append, List.length_cons, List.length_nil, Nat.add_assoc,
        Nat.add_comm 1]
    | none =>
      by_cases hbar : code = '|' ∧ bar = none
      · obtain ⟨rfl, rfl⟩ := hbar
        have hbefore : ('|' :: rest).takeWhile (· ≠ '|') = [] :=
          List.takeWhile_cons_of_neg (by decide)
        dsimp only
        rw [if_pos ⟨rfl, rfl⟩, ih, List.forall_mem_cons,
          and_iff_right (show '|' ∈ alphabet by decide), List.count_cons_self,
          List.filterMap_cons, hkind, hbefore, if_pos List.mem_cons_self, Option.toList_some,
          Option.toList_none]
        rfl
      · -- Here the code is unknown, or it is a bar after the first one.
        dsimp only
        rw [if_neg hbar]
        refine iff_of_false (fun hread ↦ nomatch hread) ?_
        rintro ⟨hknown, hbars, -⟩
        have hcode : code = '|' := by
          by_contra hcode
          have hkind' := (kindOf?_isSome_iff code).mpr ⟨hknown code List.mem_cons_self, hcode⟩
          rw [hkind] at hkind'
          cases hkind'
        obtain ⟨before, rfl⟩ : ∃ before, bar = some before :=
          Option.ne_none_iff_exists'.mp fun hnone ↦ hbar ⟨hcode, hnone⟩
        rw [hcode, List.count_cons_self, Option.toList_some, List.length_singleton] at hbars
        omega

/-- Without a bar all parameters are required. -/
theorem getD_bar_eq_length {codes : List Char} (hknown : ∀ code ∈ codes, code ∈ alphabet) :
    (if '|' ∈ codes then some (codes.takeWhile (· ≠ '|')).length else none).getD
      (codes.filterMap kindOf?).length = (codes.takeWhile (· ≠ '|')).length := by
  by_cases hbar : '|' ∈ codes
  · rw [if_pos hbar, Option.getD_some]
  · have hdiffer : ∀ code ∈ codes, code ≠ '|' := fun code hcode hsame ↦ hbar (hsame ▸ hcode)
    have hbefore : codes.takeWhile (· ≠ '|') = codes :=
      List.takeWhile_eq_self_iff.mpr fun code hcode ↦ decide_eq_true (hdiffer code hcode)
    have hkinds : (codes.filterMap kindOf?).length = codes.length :=
      List.filterMap_length_eq_length.mpr fun code hcode ↦
        (kindOf?_isSome_iff code).mpr ⟨hknown code hcode, hdiffer code hcode⟩
    rw [if_neg hbar, Option.getD_none, hbefore, hkinds]

/-- Each code other than the bar stands for the kind of one parameter. -/
theorem map_some_filterMap_kindOf? {codes : List Char} (hknown : ∀ code ∈ codes, code ∈ alphabet) :
    (codes.filterMap kindOf?).map some = (codes.filter (· ≠ '|')).map kindOf? := by
  induction codes with
  | nil => rfl
  | cons code rest ih =>
    obtain ⟨hcode, hrest⟩ := List.forall_mem_cons.mp hknown
    by_cases hbar : code = '|'
    · rw [hbar, List.filter_cons_of_neg (by decide)]
      exact ih hrest
    · obtain ⟨kind, hkind⟩ := Option.isSome_iff_exists.mp
        ((kindOf?_isSome_iff code).mpr ⟨hcode, hbar⟩)
      have hkept : (code :: rest).filter (· ≠ '|') = code :: rest.filter (· ≠ '|') :=
        List.filter_cons_of_pos (decide_eq_true hbar)
      rw [hkept, List.filterMap_cons, hkind, List.map_cons, List.map_cons, ih hrest, hkind]

theorem length_filterMap_kindOf? {codes : List Char} (hknown : ∀ code ∈ codes, code ∈ alphabet) :
    (codes.filterMap kindOf?).length = (codes.filter (· ≠ '|')).length := by
  have hlength := congrArg List.length (map_some_filterMap_kindOf? hknown)
  rwa [List.length_map, List.length_map] at hlength

theorem getElem?_filterMap_kindOf? {codes : List Char} (hknown : ∀ code ∈ codes, code ∈ alphabet)
    (index : Nat) (kind : ParameterKind) :
    (codes.filterMap kindOf?)[index]? = some kind ↔
      ∃ code, (codes.filter (· ≠ '|'))[index]? = some code ∧ kindOf? code = some kind := by
  have hplace := congrArg (·[index]?) (map_some_filterMap_kindOf? hknown)
  simp only [List.getElem?_map] at hplace
  rw [← Option.map_eq_some_iff, ← hplace, Option.map_eq_some_iff]
  simp only [Option.some.injEq, exists_eq_right]

theorem exists_kindOf?_of_getElem? {codes : List Char} (hknown : ∀ code ∈ codes, code ∈ alphabet)
    {index : Nat} {code : Char} (hcode : (codes.filter (· ≠ '|'))[index]? = some code) :
    ∃ kind, kindOf? code = some kind ∧ (codes.filterMap kindOf?)[index]? = some kind := by
  obtain ⟨hmem, hbar⟩ := List.mem_filter.mp (List.mem_of_getElem? hcode)
  obtain ⟨kind, hkind⟩ := Option.isSome_iff_exists.mp
    ((kindOf?_isSome_iff code).mpr ⟨hknown code hmem, of_decide_eq_true hbar⟩)
  exact ⟨kind, hkind, (getElem?_filterMap_kindOf? hknown index kind).mpr ⟨code, hcode, hkind⟩⟩

theorem eq_of_kindOf?_eq_integer {code : Char} (hkind : kindOf? code = some .integer) :
    code = 'i' := by
  unfold kindOf? at hkind
  split at hkind <;> cases hkind
  rfl

/-- The codes before the bar are codes of parameters. -/
theorem length_takeWhile_le (codes : List Char) :
    (codes.takeWhile (· ≠ '|')).length ≤ (codes.filter (· ≠ '|')).length := by
  have hkept : (codes.takeWhile (· ≠ '|')).filter (· ≠ '|') = codes.takeWhile (· ≠ '|') :=
    List.filter_eq_self.mpr fun _ hcode ↦ List.mem_takeWhile_imp (p := (· ≠ '|')) hcode
  rw [← hkept]
  exact ((List.takeWhile_sublist _).filter _).length_le

/-! ### Texts -/

/-- Exactly the descriptors can be read: their codes give the kinds of the parameters, and those
before the bar the required ones. -/
theorem read_eq_ok_iff (format : String) (descriptor : Descriptor) :
    read format = .ok descriptor ↔ ∃ codes, Describes format codes descriptor.name ∧
      descriptor.kinds = codes.filterMap kindOf? ∧
      descriptor.required = (codes.takeWhile (· ≠ '|')).length := by
  have hsplit := List.takeWhile_append_dropWhile (p := (· ≠ ':')) (l := format.toList)
  unfold read
  dsimp only
  constructor
  · intro hread
    split at hread
    · cases hread
    · rename_i first name hname
      obtain rfl : first = ':' := by
        have hhead := List.head?_dropWhile_not (· ≠ ':') format.toList
        rw [hname] at hhead
        exact not_not.mp (of_decide_eq_false hhead)
      cases hcodes : readCodes format [] none (format.toList.takeWhile (· ≠ ':')) with
      | error failure =>
        rw [hcodes] at hread
        cases hread
      | ok result =>
        rw [hcodes] at hread
        obtain ⟨hknown, hbars, rfl⟩ := (readCodes_eq_ok_iff _ _ _ _ _).mp hcodes
        cases hread
        refine ⟨_, ⟨?_, hknown, hbars⟩, List.nil_append _, ?_⟩
        · rw [String.toList_ofList, ← hname, hsplit]
        · dsimp only
          rw [List.nil_append, Option.none_or, List.length_nil, Nat.zero_add,
            getD_bar_eq_length hknown]
  · rintro ⟨codes, hdescribes, hkinds, hrequired⟩
    have hcolon : ∀ code ∈ codes, decide (code ≠ ':') := by
      intro code hcode
      have hknown := hdescribes.mem_alphabet code hcode
      refine decide_eq_true fun hsame ↦ ?_
      rw [hsame] at hknown
      exact absurd hknown (by decide)
    have hcodes : format.toList.takeWhile (· ≠ ':') = codes := by
      rw [hdescribes.format_eq, List.takeWhile_append_of_pos hcolon,
        List.takeWhile_cons_of_neg (by decide), List.append_nil]
    have hname : format.toList.dropWhile (· ≠ ':') = ':' :: descriptor.name.toList := by
      rw [hdescribes.format_eq, List.dropWhile_append_of_pos hcolon,
        List.dropWhile_cons_of_neg (by decide)]
    have hread := (readCodes_eq_ok_iff format [] none codes _).mpr
      ⟨hdescribes.mem_alphabet, hdescribes.count_bar_le, rfl⟩
    rw [List.nil_append, Option.none_or, List.length_nil] at hread
    simp only [Nat.zero_add] at hread
    rw [hname, hcodes]
    dsimp only
    rw [hread, String.ofList_toList]
    show Except.ok (Descriptor.mk descriptor.name _ (Option.getD _ _)) = Except.ok descriptor
    rw [getD_bar_eq_length hdescribes.mem_alphabet, ← hkinds, ← hrequired]

theorem exists_of_readCodes_eq_error {format : String} {kinds : List ParameterKind}
    {bar : Option Nat} {codes : List Char} {failure : Failure}
    (hread : readCodes format kinds bar codes = .error failure) :
    ∃ message, failure = .internal message := by
  induction codes generalizing kinds bar with
  | nil => cases hread
  | cons code rest ih =>
    rw [readCodes] at hread
    split at hread
    · exact ih hread
    · split at hread
      · exact ih hread
      · cases hread
        exact ⟨_, rfl⟩

/-- A text that cannot be read is an internal error. -/
theorem exists_of_read_eq_error {format : String} {failure : Failure}
    (hread : read format = .error failure) : ∃ message, failure = .internal message := by
  unfold read at hread
  dsimp only at hread
  split at hread
  · cases hread
    exact ⟨_, rfl⟩
  · cases hcodes : readCodes format [] none (format.toList.takeWhile (· ≠ ':')) with
    | ok result =>
      rw [hcodes] at hread
      cases hread
    | error fault =>
      rw [hcodes] at hread
      cases hread
      exact exists_of_readCodes_eq_error hcodes

/-! ### Conversion -/

/-- What the parameter of a code takes a value as. -/
inductive Converts : Char → Value → Value → Prop
  | any (value : Value) : Converts 'O' value value
  | text (content : String) : Converts 's' (.text content) (.text content)
  | unicode (content : String) : Converts 'U' (.text content) (.text content)
  | truth (truth : Bool) : Converts 'i' (.bool truth) (.int (if truth then 1 else 0))
  | integer (word : Int64) : Converts 'i' (.int word) (.int word)

end Descriptor

namespace ParameterKind

/-- What a parameter takes a value as, if it takes it at all. -/
def taken? : ParameterKind → Value → Option Value
  | .any, value => some value
  | .text, .text content => some (.text content)
  | .integer, .bool truth => some (.int (if truth then 1 else 0))
  | .integer, .int word => some (.int word)
  | _, _ => none

variable {heap : Heap} {name : String} {place : ArgumentPlace} {kind : ParameterKind}
  {value result : Value}

/-- How a value is taken does not depend on where it was given. -/
theorem convert_of_taken? (htaken : kind.taken? value = some result) :
    kind.convert heap name place value = .ok result := by
  cases kind with
  | any => exact congrArg Except.ok (Option.some.inj htaken)
  | text =>
    cases value with
    | text content => exact congrArg Except.ok (Option.some.inj htaken)
    | _ => cases htaken
  | integer =>
    cases value with
    | bool truth =>
      rw [← Option.some.inj htaken]
      cases truth <;> rfl
    | int word => exact congrArg Except.ok (Option.some.inj htaken)
    | _ => cases htaken

/-- Whether an exception tells why a parameter does not take a value. -/
def Refuses (kind : ParameterKind) (value : Value) (exception : Exception) : Prop :=
  exception.cls = .typeError ∨
    exception.cls = .overflowError ∧ kind = .integer ∧ ∃ integer, value = .long integer

/-- A value that is not taken is a type error, or an overflow if it is too large an integer. -/
theorem exists_of_not_taken (heap : Heap) (name : String) (place : ArgumentPlace)
    (htaken : kind.taken? value = none) :
    ∃ exception, kind.convert heap name place value = .error exception ∧
      kind.Refuses value exception := by
  cases kind with
  | any => cases htaken
  | text =>
    cases value with
    | text => cases htaken
    | _ => exact ⟨_, rfl, Or.inl rfl⟩
  | integer =>
    cases value with
    | bool | int => cases htaken
    | long integer => exact ⟨_, rfl, Or.inr ⟨rfl, rfl, integer, rfl⟩⟩
    | _ => exact ⟨_, rfl, Or.inl rfl⟩

end ParameterKind

theorem Descriptor.converts_iff {code : Char} {kind : ParameterKind}
    (hkind : kindOf? code = some kind) (value result : Value) :
    Converts code value result ↔ kind.taken? value = some result := by
  constructor
  · intro hconverts
    cases hconverts <;> cases hkind <;> rfl
  · intro htaken
    unfold kindOf? at hkind
    split at hkind <;> cases hkind
    case h_1 =>
      rw [← Option.some.inj htaken]
      exact .any value
    case h_2 =>
      cases value <;> cases htaken
      exact .text _
    case h_3 =>
      cases value <;> cases htaken
      exact .unicode _
    case h_4 =>
      cases value <;> cases htaken
      · exact .truth _
      · exact .integer _

end Metaobject
