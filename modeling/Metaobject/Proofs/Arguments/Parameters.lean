import Metaobject.Proofs.Entries
import Metaobject.Proofs.Run.Requests
import Metaobject.Proofs.Safety.Arguments

/-!
# The parameters of a call

A call of a user function binds each parameter once: the first ones by position, others by keyword,
and the last ones to the defaults. Keywords are stored as they are given if each of them names a
parameter that no positional argument fills (`Arguments.bindByName_eq_ok`). Then the parameters that
are still unbound get their defaults (`Arguments.find?_bindDefaults`), and those without one are
collected in the order of declaration (`Arguments.missing_bindDefaults`). The local scope of a call
and the type error when there is none are described for every call (`Function.localsFor_binds`).
-/

set_option autoImplicit false
set_option relaxedAutoImplicit false

namespace Metaobject

namespace Arguments

variable {name : String} {parameters : List String} {defaults positional : List Value}
  {filled count index : Nat} {bound given : Entries Value} {pairs : List (String × Value)}

theorem keywordList_eq (heap : Heap) (positional : List Value) (keywords : Option Address) :
    keywordList heap ⟨positional, keywords⟩ = ((keywords.map heap.entries).getD .empty).toList := by
  cases keywords <;> rfl

/-! ### By keyword -/

/-- Whether a key names a parameter from the place `filled` on. -/
def Names (parameters : List String) (filled : Nat) (key : String) : Prop :=
  ∃ index, filled ≤ index ∧ parameters[index]? = some key

theorem findIdx?_eq_some_iff (hdistinct : parameters.Nodup) (key : String) (index : Nat) :
    parameters.findIdx? (· = key) = some index ↔ parameters[index]? = some key := by
  rw [List.findIdx?_eq_some_iff_getElem, List.getElem?_eq_some_iff]
  constructor
  · rintro ⟨hindex, hkey, -⟩
    exact ⟨hindex, of_decide_eq_true hkey⟩
  · rintro ⟨hindex, hkey⟩
    refine ⟨hindex, decide_eq_true hkey, fun other hother hsame ↦ ?_⟩
    have hplaces : other = index :=
      hdistinct.getElem_inj_iff.mp ((of_decide_eq_true hsame).trans hkey.symm)
    omega

/-- Keywords that name parameters not filled by position are stored as they are given. -/
theorem bindByName_eq_ok (hdistinct : parameters.Nodup)
    (hnames : ∀ pair ∈ pairs, Names parameters filled pair.1) :
    bindByName name parameters filled bound pairs = .ok (bound.insertAll pairs) := by
  induction pairs generalizing bound with
  | nil => rfl
  | cons pair rest ih =>
    obtain ⟨key, value⟩ := pair
    obtain ⟨⟨index, hfilled, hindex⟩, hrest⟩ := List.forall_mem_cons.mp hnames
    rw [bindByName, (findIdx?_eq_some_iff hdistinct key index).mpr hindex]
    show (if index < filled then _ else _) = _
    rw [if_neg (Nat.not_lt.mpr hfilled), ih hrest]
    rfl

/-- A keyword that names no parameter, or one filled by position, is a type error. -/
theorem exists_of_bindByName (name : String) (bound : Entries Value) (hdistinct : parameters.Nodup)
    (hnames : ∃ pair ∈ pairs, ¬Names parameters filled pair.1) :
    ∃ exception : Exception, exception.cls = .typeError ∧
      bindByName name parameters filled bound pairs = .error exception := by
  induction pairs generalizing bound with
  | nil => obtain ⟨_, hnone, -⟩ := hnames; cases hnone
  | cons pair rest ih =>
    obtain ⟨key, value⟩ := pair
    rw [bindByName]
    split
    · exact ⟨_, rfl, rfl⟩
    · rename_i index hindex
      split
      · exact ⟨_, rfl, rfl⟩
      · rename_i hfilled
        have hkey : Names parameters filled key :=
          ⟨index, Nat.not_lt.mp hfilled, (findIdx?_eq_some_iff hdistinct key index).mp hindex⟩
        obtain ⟨other, hother, hnot⟩ := hnames
        obtain rfl | hother := List.mem_cons.mp hother
        · exact absurd hkey hnot
        · exact ih _ ⟨other, hother, hnot⟩

/-! ### By default -/

/-- A parameter has a default exactly from the first of the defaults on. -/
theorem defaultFor_eq_none_iff (hindex : index < count) (hfew : defaults.length ≤ count) :
    defaultFor defaults count index = none ↔ index < count - defaults.length := by
  unfold defaultFor
  dsimp only
  split
  · rename_i hfirst
    exact iff_of_true rfl hfirst
  · rename_i hfirst
    rw [List.getElem?_eq_none_iff]
    omega

/-- One parameter: it keeps its value or gets its default, and is collected without either. -/
theorem bindDefaults_cons (defaults : List Value) (count index : Nat) (bound : Entries Value)
    (parameter : String) (rest : List String) :
    ∃ next : Entries Value,
      (∀ key, next.find? key = if key = parameter then
        (bound.find? parameter).or (defaultFor defaults count index) else bound.find? key) ∧
      bindDefaults defaults count index bound (parameter :: rest) =
        let after := bindDefaults defaults count (index + 1) next rest
        (after.1, if next.contains parameter then after.2 else parameter :: after.2) := by
  rw [bindDefaults]
  by_cases hbound : bound.contains parameter
  · obtain ⟨value, hvalue⟩ := (bound.contains_iff parameter).mp hbound
    refine ⟨bound, fun key ↦ ?_, ?_⟩
    · split
      · rename_i hkey
        rw [hkey, hvalue, Option.some_or]
      · rfl
    · rw [if_pos hbound]
      dsimp only
      rw [if_pos hbound]
  · have hfree := (bound.contains_eq_false_iff parameter).mp (Bool.eq_false_iff.mpr hbound)
    rw [if_neg hbound, hfree, Option.none_or]
    cases hdefault : defaultFor defaults count index with
    | some value =>
      refine ⟨bound.insert parameter value, fun key ↦ bound.find?_insert parameter key value, ?_⟩
      have hcontains : (bound.insert parameter value).contains parameter := by
        rw [Entries.contains_insert, beq_self_eq_true, Bool.true_or]
      dsimp only
      rw [if_pos hcontains]
    | none =>
      refine ⟨bound, fun key ↦ ?_, ?_⟩
      · split
        · rename_i hkey
          rw [hkey, hfree]
        · rfl
      · dsimp only
        rw [if_neg hbound]

theorem find?_bindDefaults_of_not_mem {key : String} (habsent : key ∉ parameters) :
    (bindDefaults defaults count index bound parameters).1.find? key = bound.find? key := by
  induction parameters generalizing index bound with
  | nil => rfl
  | cons parameter rest ih =>
    obtain ⟨hdiffer, habsent⟩ := not_or.mp (List.mem_cons.not.mp habsent)
    obtain ⟨next, hnext, hstep⟩ := bindDefaults_cons defaults count index bound parameter rest
    rw [hstep, ih habsent, hnext, if_neg hdiffer]

/-- A parameter that is bound keeps its value, and any other gets its default. -/
theorem find?_bindDefaults (hdistinct : parameters.Nodup) {place : Nat} {key : String}
    (hkey : parameters[place]? = some key) :
    (bindDefaults defaults count index bound parameters).1.find? key =
      (bound.find? key).or (defaultFor defaults count (index + place)) := by
  induction parameters generalizing index bound place with
  | nil => cases hkey
  | cons parameter rest ih =>
    obtain ⟨habsent, hdistinct⟩ := List.nodup_cons.mp hdistinct
    obtain ⟨next, hnext, hstep⟩ := bindDefaults_cons defaults count index bound parameter rest
    rw [hstep]
    cases place with
    | zero =>
      obtain rfl : parameter = key := Option.some.inj hkey
      rw [find?_bindDefaults_of_not_mem habsent, hnext, if_pos rfl]
      rfl
    | succ place =>
      have hkey : rest[place]? = some key := hkey
      have hdiffer : key ≠ parameter := fun hsame ↦
        habsent (hsame ▸ List.mem_of_getElem? hkey)
      rw [ih hdistinct hkey, hnext, if_neg hdiffer, Nat.add_right_comm, Nat.add_assoc]

/-- The parameters that are neither bound nor have a default are collected in order. -/
theorem missing_bindDefaults (hdistinct : parameters.Nodup) (hfew : defaults.length ≤ count)
    (hcount : index + parameters.length = count) :
    (bindDefaults defaults count index bound parameters).2 =
      (parameters.take (count - defaults.length - index)).filter (!bound.contains ·) := by
  induction parameters generalizing index bound with
  | nil => rw [List.take_nil, bindDefaults, List.filter_nil]
  | cons parameter rest ih =>
    obtain ⟨habsent, hdistinct⟩ := List.nodup_cons.mp hdistinct
    obtain ⟨next, hnext, hstep⟩ := bindDefaults_cons defaults count index bound parameter rest
    rw [List.length_cons] at hcount
    have hsame : ∀ key ∈ rest, next.contains key = bound.contains key := by
      intro key hkey
      have hdiffer : key ≠ parameter := fun hsame ↦ habsent (hsame ▸ hkey)
      rw [Entries.contains, hnext, if_neg hdiffer, Entries.contains]
    have hrest : (bindDefaults defaults count (index + 1) next rest).2 =
        (rest.take (count - defaults.length - (index + 1))).filter (!bound.contains ·) := by
      rw [ih hdistinct (by omega)]
      exact List.filter_congr fun key hkey ↦ by rw [hsame key (List.mem_of_mem_take hkey)]
    have hparameter : next.contains parameter =
        (bound.contains parameter || (defaultFor defaults count index).isSome) := by
      rw [Entries.contains, hnext, if_pos rfl, Option.isSome_or, Entries.contains]
    rw [hstep]
    show (if next.contains parameter then _ else _) = _
    rw [hrest, hparameter]
    by_cases hfirst : index < count - defaults.length
    · -- A parameter before the defaults is missing unless it is bound.
      obtain ⟨before, hbefore⟩ := Nat.exists_eq_add_of_lt hfirst
      have hplaces : count - defaults.length - index = before + 1 := by omega
      have hlater : count - defaults.length - (index + 1) = before := by omega
      rw [(defaultFor_eq_none_iff (by omega) hfew).mpr hfirst, hplaces, hlater,
        List.take_succ_cons, List.filter_cons, Option.isSome_none, Bool.or_false]
      cases bound.contains parameter <;> rfl
    · have hdefault : (defaultFor defaults count index).isSome := by
        rw [Option.isSome_iff_ne_none, Ne, defaultFor_eq_none_iff (by omega) hfew]
        exact hfirst
      have hnone : count - defaults.length - index = 0 := by omega
      have hlater : count - defaults.length - (index + 1) = 0 := by omega
      rw [hdefault, hnone, hlater, Bool.or_true, if_pos rfl, List.take_zero, List.take_zero]

/-! ### All parameters -/

/-- Whether every keyword names a parameter that no positional argument fills. -/
def Known (parameters : List String) (positional : List Value) (given : Entries Value) : Prop :=
  ∀ key, given.contains key → Names parameters positional.length key

/-- The positional arguments under the names of the first parameters, and the keywords as given. -/
def supplied (parameters : List String) (positional : List Value) (given : Entries Value) :
    Entries Value :=
  (Entries.ofList (parameters.zip positional)).insertAll given.toList

theorem find?_supplied (key : String) :
    (supplied parameters positional given).find? key =
      (given.find? key).or ((Entries.ofList (parameters.zip positional)).find? key) :=
  Entries.find?_insertAll given.keys_nodup _ key

/-- The parameters that no positional argument fills and that have no default, in order. -/
def wanting (parameters : List String) (defaults positional : List Value) : List String :=
  (parameters.take (parameters.length - defaults.length)).drop positional.length

theorem mem_wanting_iff {parameter : String} :
    parameter ∈ wanting parameters defaults positional ↔
      ∃ index, positional.length ≤ index ∧ index < parameters.length - defaults.length ∧
        parameters[index]? = some parameter := by
  simp only [wanting, List.mem_iff_getElem?, List.getElem?_drop, List.getElem?_take]
  constructor
  · rintro ⟨place, hplace⟩
    split at hplace
    · rename_i hfirst
      exact ⟨positional.length + place, Nat.le_add_right _ _, hfirst, hplace⟩
    · cases hplace
  · rintro ⟨index, hpositional, hfirst, hindex⟩
    refine ⟨index - positional.length, ?_⟩
    rw [Nat.add_sub_cancel' hpositional, if_pos hfirst, hindex]

/-- The parameters that lack an argument, in order. -/
def lacking (parameters : List String) (defaults positional : List Value)
    (given : Entries Value) : List String :=
  (wanting parameters defaults positional).filter (!given.contains ·)

/-- No parameter lacks an argument if those that are wanting are given by keyword. -/
theorem lacking_eq_nil_iff : lacking parameters defaults positional given = [] ↔
    ∀ index parameter, positional.length ≤ index → index < parameters.length - defaults.length →
      parameters[index]? = some parameter → given.contains parameter := by
  simp only [lacking, List.filter_eq_nil_iff, Bool.not_eq_true', Bool.not_eq_false,
    mem_wanting_iff]
  constructor
  · intro hgiven index parameter hpositional hrequired hindex
    exact hgiven parameter ⟨index, hpositional, hrequired, hindex⟩
  · rintro hcomplete parameter ⟨index, hpositional, hrequired, hindex⟩
    exact hcomplete index parameter hpositional hrequired hindex

section

variable (hdistinct : parameters.Nodup) (hknown : Known parameters positional given)

include hdistinct hknown

/-- Before the defaults, a parameter is bound by position or else by keyword. -/
theorem find?_supplied_of_getElem? {parameter : String}
    (hindex : parameters[index]? = some parameter) :
    (supplied parameters positional given).find? parameter =
      if index < positional.length then positional[index]? else given.find? parameter := by
  rw [find?_supplied, Entries.find?_ofList_zip_of_getElem? hdistinct positional hindex]
  split
  · rename_i hfilled
    cases hgiven : given.find? parameter with
    | none => rfl
    | some value =>
      obtain ⟨other, hother, hsame⟩ :=
        hknown parameter ((given.contains_iff parameter).mpr ⟨value, hgiven⟩)
      obtain ⟨hbelow, -⟩ := List.getElem?_eq_some_iff.mp hindex
      have hplaces : index = other :=
        (List.getElem?_inj hbelow hdistinct).mp (hindex.trans hsame.symm)
      omega
  · rename_i hfilled
    rw [List.getElem?_eq_none (Nat.not_lt.mp hfilled), Option.or_none]

/-- The parameters before the defaults that are not supplied are those that lack an argument. -/
theorem filter_take_eq_lacking :
    (parameters.take (parameters.length - defaults.length)).filter
        (!(supplied parameters positional given).contains ·) =
      lacking parameters defaults positional given := by
  have hfilled : ((parameters.take (parameters.length - defaults.length)).take
      positional.length).filter (!(supplied parameters positional given).contains ·) = [] := by
    rw [List.filter_eq_nil_iff]
    intro parameter hparameter
    obtain ⟨index, hindex⟩ := List.mem_iff_getElem?.mp hparameter
    rw [List.getElem?_take, List.getElem?_take] at hindex
    split_ifs at hindex with hpositional
    rw [Entries.contains, find?_supplied_of_getElem? hdistinct hknown hindex, if_pos hpositional,
      List.getElem?_eq_getElem hpositional]
    exact Bool.false_ne_true
  have hrest : ∀ parameter ∈ wanting parameters defaults positional,
      (supplied parameters positional given).contains parameter = given.contains parameter := by
    intro parameter hparameter
    obtain ⟨index, hpositional, -, hindex⟩ := mem_wanting_iff.mp hparameter
    rw [Entries.contains, find?_supplied_of_getElem? hdistinct hknown hindex,
      if_neg (Nat.not_lt.mpr hpositional), Entries.contains]
  rw [← List.take_append_drop positional.length
    (parameters.take (parameters.length - defaults.length)), List.filter_append, hfilled,
    List.nil_append]
  exact List.filter_congr fun parameter hparameter ↦ by rw [hrest parameter hparameter]

/-- Arguments that all find their place are bound, or the parameters that lack one are reported. -/
theorem bindParameters_eq (name : String) (hpositional : positional.length ≤ parameters.length)
    (hdefaults : defaults.length ≤ parameters.length) :
    bindParameters name parameters defaults positional given.toList =
      if lacking parameters defaults positional given = [] then
        .ok (bindDefaults defaults parameters.length 0
          (supplied parameters positional given) parameters).1
      else .error (.missingParameters name (lacking parameters defaults positional given)) := by
  have hnames : ∀ pair ∈ given.toList, Names parameters positional.length pair.1 :=
    fun pair hpair ↦ hknown pair.1 ((given.contains_iff pair.1).mpr
      ⟨pair.2, (given.mem_toList_iff pair.1 pair.2).mp hpair⟩)
  have hmissing : (bindDefaults defaults parameters.length 0
      (supplied parameters positional given) parameters).2 = _ :=
    missing_bindDefaults hdistinct hdefaults (Nat.zero_add _)
  rw [Nat.sub_zero, filter_take_eq_lacking hdistinct hknown] at hmissing
  unfold bindParameters
  rw [if_neg (Nat.not_lt.mpr hpositional)]
  dsimp only
  rw [bindByName_eq_ok hdistinct hnames, ← hmissing, ← supplied]
  dsimp only [Bind.bind, Except.bind]
  obtain ⟨bound, missing⟩ := bindDefaults defaults parameters.length 0
    (supplied parameters positional given) parameters
  cases missing <;> rfl

/-- When no parameter lacks an argument, exactly the parameters are bound: the first ones by
position, the others by keyword or else to their defaults. -/
theorem bindDefaults_supplied
    (hdefaults : defaults.length ≤ parameters.length)
    (hcomplete : ∀ index parameter, positional.length ≤ index →
      index < parameters.length - defaults.length → parameters[index]? = some parameter →
      given.contains parameter) :
    let bound := (bindDefaults defaults parameters.length 0
      (supplied parameters positional given) parameters).1
    (∀ key, bound.contains key ↔ key ∈ parameters) ∧
      ∀ index parameter, parameters[index]? = some parameter → bound.find? parameter =
        if index < positional.length then positional[index]?
        else (given.find? parameter).or
          defaults[index - (parameters.length - defaults.length)]? := by
  intro bound
  have hvalue : ∀ index parameter, parameters[index]? = some parameter →
      bound.find? parameter = if index < positional.length then positional[index]?
        else (given.find? parameter).or
          defaults[index - (parameters.length - defaults.length)]? := by
    intro index parameter hindex
    rw [find?_bindDefaults hdistinct hindex, find?_supplied_of_getElem? hdistinct hknown hindex,
      Nat.zero_add]
    split
    · rename_i hfilled
      rw [List.getElem?_eq_getElem hfilled, Option.some_or]
    · rename_i hfilled
      unfold defaultFor
      dsimp only
      split
      · rename_i hfirst
        obtain ⟨value, hvalue⟩ := (given.contains_iff parameter).mp
          (hcomplete index parameter (Nat.not_lt.mp hfilled) hfirst hindex)
        rw [hvalue, Option.some_or, Option.some_or]
      · rfl
  refine ⟨fun key ↦ ⟨fun hkey ↦ ?_, fun hkey ↦ ?_⟩, hvalue⟩
  · by_contra habsent
    have hgiven : given.find? key = none := by
      rw [← Entries.contains_eq_false_iff, ← Bool.not_eq_true]
      intro hgiven
      obtain ⟨index, -, hindex⟩ := hknown key hgiven
      exact habsent (List.mem_of_getElem? hindex)
    have hnone : bound.find? key = none := by
      rw [find?_bindDefaults_of_not_mem habsent, find?_supplied, hgiven, Option.none_or,
        Entries.find?_ofList_zip_eq_none hdistinct positional habsent]
    rw [Entries.contains, hnone] at hkey
    cases hkey
  · obtain ⟨index, hindex⟩ := List.mem_iff_getElem?.mp hkey
    obtain ⟨hbelow, -⟩ := List.getElem?_eq_some_iff.mp hindex
    rw [Entries.contains, hvalue index key hindex]
    split
    · rename_i hfilled
      rw [List.getElem?_eq_getElem hfilled, Option.isSome_some]
    · rename_i hfilled
      rw [Option.isSome_or, Bool.or_eq_true]
      by_cases hfirst : index < parameters.length - defaults.length
      · exact Or.inl (hcomplete index key (Nat.not_lt.mp hfilled) hfirst hindex)
      · have hdefault : index - (parameters.length - defaults.length) < defaults.length := by
          omega
        exact Or.inr (by rw [List.getElem?_eq_getElem hdefault, Option.isSome_some])

end

/-- Too many positional arguments, and a keyword that does not find its place, are type errors. -/
theorem exists_of_bindParameters (name : String) (defaults : List Value)
    (hdistinct : parameters.Nodup)
    (hmisfit : positional.length ≤ parameters.length → ¬Known parameters positional given) :
    ∃ exception : Exception, exception.cls = .typeError ∧
      bindParameters name parameters defaults positional given.toList = .error exception := by
  unfold bindParameters
  by_cases hpositional : positional.length ≤ parameters.length
  · have hunknown := hmisfit hpositional
    unfold Known at hunknown
    push Not at hunknown
    obtain ⟨key, hgiven, hnot⟩ := hunknown
    obtain ⟨value, hvalue⟩ := (given.contains_iff key).mp hgiven
    have hpair : (key, value) ∈ given.toList := (given.mem_toList_iff key value).mpr hvalue
    obtain ⟨exception, hclass, hfault⟩ := exists_of_bindByName name
      (.ofList (parameters.zip positional)) hdistinct ⟨_, hpair, hnot⟩
    rw [if_neg (Nat.not_lt.mpr hpositional)]
    dsimp only
    rw [hfault]
    exact ⟨exception, hclass, rfl⟩
  · rw [if_pos (Nat.not_le.mp hpositional)]
    exact ⟨_, rfl, rfl⟩

end Arguments

section

variable {settings : Settings}
  {respond : {Answer : Type} → Request Answer → World → Ending Answer × World} {world : World}
  {function : FunctionRecord} {code : CodeRecord} {positional : List Value}
  {keywords : Option Address}

/-! ### The local scope -/

/-- Outside class bodies the local scope is a new dict with the bound parameters. -/
theorem Function.leads_localsFor (hcode : world.heap.code? function.code = some code)
    (hordinary : code.isClassBody = false) :
    (localsFor function ⟨positional, keywords⟩).Leads settings respond world
      (.ofExcept (Arguments.bindParameters function.name code.parameters function.defaults
        positional ((keywords.map world.heap.entries).getD .empty).toList) >>=
          fun bound ↦ .effect (.newDict bound)) world := by
  refine (Program.leads_heap _ world).trans ?_
  rw [hcode]
  dsimp only
  rw [hordinary, if_neg Bool.false_ne_true, Arguments.keywordList_eq]
  exact ⟨rfl, rfl⟩

section

variable (settings) (respond) (positional) (keywords)
  (hcode : world.heap.code? function.code = some code) (hordinary : code.isClassBody = false)
  (hdistinct : code.parameters.Nodup)

include hcode hordinary hdistinct

/-- A call that is given all it needs has a new dict of the parameters for its local scope. -/
theorem Function.gives_localsFor (hdefaults : function.defaults.length ≤ code.parameters.length) :
    let given := (keywords.map world.heap.entries).getD .empty
    let required := code.parameters.length - function.defaults.length
    positional.length ≤ code.parameters.length → Arguments.Known code.parameters positional given →
      (∀ index parameter, positional.length ≤ index → index < required →
        code.parameters[index]? = some parameter → given.contains parameter) →
      ∃ scope bound final,
        (localsFor function ⟨positional, keywords⟩).Gives settings respond world [] scope final ∧
        world.heap.get? scope = none ∧
        (∀ address, final.heap.get? address =
          if address = scope then some (.dict bound) else world.heap.get? address) ∧
        (∀ key, bound.contains key ↔ key ∈ code.parameters) ∧
        ∀ index parameter, code.parameters[index]? = some parameter → bound.find? parameter =
          if index < positional.length then positional[index]?
          else (given.find? parameter).or function.defaults[index - required]? := by
  intro given required hfew hknown hcomplete
  have hbound := Arguments.bindParameters_eq hdistinct hknown function.name hfew hdefaults
  rw [if_pos (Arguments.lacking_eq_nil_iff.mpr hcomplete)] at hbound
  have hdict : ∀ bound, (Program.effect (.newDict bound)).Gives settings respond world []
      world.heap.size (world.allocate (.dict bound)).2 := fun bound ↦ Program.gives_effect rfl
  exact ⟨world.heap.size, _, _, (leads_localsFor hcode hordinary).gives
      ((Program.gives_ofExcept hbound world).bind (hdict _)),
    (world.heap.get?_eq_none_iff world.heap.size).mpr (Nat.le_refl _),
    world.heap.get?_allocate _,
    Arguments.bindDefaults_supplied hdistinct hknown hdefaults hcomplete⟩

/-- A call whose arguments find their places reports the parameters that lack one. -/
theorem Function.stops_localsFor (hdefaults : function.defaults.length ≤ code.parameters.length) :
    let given := (keywords.map world.heap.entries).getD .empty
    let lacking := Arguments.lacking code.parameters function.defaults positional given
    positional.length ≤ code.parameters.length → Arguments.Known code.parameters positional given →
      lacking ≠ [] → (localsFor function ⟨positional, keywords⟩).Stops settings respond world []
        (.raised (.missingParameters function.name lacking)) world := by
  intro given lacking hfew hknown hlacking
  have hbound := Arguments.bindParameters_eq hdistinct hknown function.name hfew hdefaults
  rw [if_neg hlacking] at hbound
  exact (leads_localsFor hcode hordinary).stops ((Program.stops_ofExcept hbound world).bind _)

/-- A call with an argument that finds no place is a type error. -/
theorem Function.exists_stops_localsFor
    (hmisfit : positional.length ≤ code.parameters.length →
      ¬Arguments.Known code.parameters positional ((keywords.map world.heap.entries).getD .empty)) :
    ∃ exception : Exception, exception.cls = .typeError ∧
      (localsFor function ⟨positional, keywords⟩).Stops settings respond world []
        (.raised exception) world := by
  obtain ⟨exception, hclass, hfault⟩ :=
    Arguments.exists_of_bindParameters function.name function.defaults hdistinct hmisfit
  exact ⟨exception, hclass,
    (leads_localsFor hcode hordinary).stops ((Program.stops_ofExcept hfault world).bind _)⟩

end

/-- Calls of user functions, for all arguments. With distinct parameters, the last of them with
defaults, a call has a local scope exactly if no positional argument is left over, each keyword
names a parameter that no positional argument fills, and each parameter without a default that no
positional argument fills is given by keyword. The scope is a new dict of exactly the parameters:
bound by position, or else by keyword, or else to their own defaults; everything else stays as it
is, the dict of keywords included. All other calls are type errors and change nothing. If only
parameters are lacking, the message counts them and lists them in the order of declaration. -/
theorem Function.localsFor_binds (settings : Settings)
    (respond : {Answer : Type} → Request Answer → World → Ending Answer × World) (world : World)
    (function : FunctionRecord) (hcode : world.heap.code? function.code = some code)
    (hordinary : code.isClassBody = false) (hdistinct : code.parameters.Nodup)
    (hdefaults : function.defaults.length ≤ code.parameters.length)
    (positional : List Value) (keywords : Option Address) :
    let program := localsFor function ⟨positional, keywords⟩
    let given := (keywords.map world.heap.entries).getD .empty
    let required := code.parameters.length - function.defaults.length
    let few := positional.length ≤ code.parameters.length
    let known := ∀ key, given.contains key →
      ∃ index, positional.length ≤ index ∧ code.parameters[index]? = some key
    let complete := ∀ index parameter, positional.length ≤ index → index < required →
      code.parameters[index]? = some parameter → given.contains parameter
    ((∃ scope final, program.run settings respond world = (.value scope, final)) ↔
        few ∧ known ∧ complete) ∧
      (few ∧ known ∧ complete → ∃ scope bound final,
        program.Gives settings respond world [] scope final ∧
          world.heap.get? scope = none ∧
          (∀ address, final.heap.get? address =
            if address = scope then some (.dict bound) else world.heap.get? address) ∧
          (∀ key, bound.contains key ↔ key ∈ code.parameters) ∧
          ∀ index parameter, code.parameters[index]? = some parameter → bound.find? parameter =
            if index < positional.length then positional[index]?
            else (given.find? parameter).or function.defaults[index - required]?) ∧
      (¬(few ∧ known ∧ complete) → ∃ exception : Exception, exception.cls = .typeError ∧
        program.Stops settings respond world [] (.raised exception) world) ∧
      (few → known → ¬complete →
        let lacking := ((code.parameters.take required).drop positional.length).filter
          (!given.contains ·)
        let name := function.name
        let count := lacking.length
        let ending := if count = 1 then "" else "s"
        let listed := ", ".intercalate (lacking.map fun parameter ↦ s!"'{parameter}'")
        let message := s!"{name}() missing {count} required positional argument{ending}: {listed}"
        program.Stops settings respond world [] (.raised ⟨.typeError, some message⟩) world) := by
  intro program given required few known complete
  have hgives := gives_localsFor settings respond positional keywords hcode hordinary hdistinct
    hdefaults
  have hmissing : few → known → ¬complete → program.Stops settings respond world []
      (.raised (.missingParameters function.name
        (Arguments.lacking code.parameters function.defaults positional given))) world :=
    fun hfew hknown hincomplete ↦ stops_localsFor settings respond positional keywords hcode
      hordinary hdistinct hdefaults hfew hknown
      fun hnone ↦ hincomplete (Arguments.lacking_eq_nil_iff.mp hnone)
  have hstops : ¬(few ∧ known ∧ complete) → ∃ exception : Exception,
      exception.cls = .typeError ∧
        program.Stops settings respond world [] (.raised exception) world := by
    intro hmisfit
    by_cases hfits : few ∧ known
    · exact ⟨_, rfl, hmissing hfits.1 hfits.2 fun hcomplete ↦
        hmisfit ⟨hfits.1, hfits.2, hcomplete⟩⟩
    · exact exists_stops_localsFor settings respond positional keywords hcode hordinary hdistinct
        fun hfew hknown ↦ hfits ⟨hfew, hknown⟩
  refine ⟨⟨fun hvalue ↦ ?_, ?_⟩, ?_, hstops, hmissing⟩
  · by_contra hmisfit
    obtain ⟨scope, final, hrun⟩ := hvalue
    obtain ⟨exception, -, hstop⟩ := hstops hmisfit
    have hending := congrArg Prod.fst (hstop.run.symm.trans hrun)
    exact Cut.ending_ne_value (.raised exception) scope hending
  · rintro ⟨hfew, hknown, hcomplete⟩
    obtain ⟨scope, _, final, hgive, -⟩ := hgives hfew hknown hcomplete
    exact ⟨scope, final, hgive.run⟩
  · rintro ⟨hfew, hknown, hcomplete⟩
    exact hgives hfew hknown hcomplete

end

/-! ### One parameter of each kind -/

namespace ParameterBinding

/-- Code with three parameters. -/
def code : CodeRecord := ⟨"f", "<test>", ["a", "b", "c"], false, .foreign⟩

/-- A function whose last parameter has a default. -/
def function : FunctionRecord := ⟨"f", 1, 0, [], [.int 3]⟩

/-- The code, and a dict of keywords with a value for the second parameter. -/
def world : World :=
  { World.blank with
    heap := (Heap.empty.allocate (.code code)).allocate
      (.dict (Entries.empty.insert "b" (.int 2))) }

end ParameterBinding

/-- The first parameter by position, the second by keyword and the third by default; without
arguments the first two are lacking. -/
theorem Function.localsFor_binds_three :
    (∃ scope bound final,
      (localsFor ParameterBinding.function ⟨[.int 1], some 1⟩).Gives .scripted
        (Request.answer .scripted 0) ParameterBinding.world [] scope final ∧
      final.heap.get? scope = some (.dict bound) ∧ bound.find? "a" = some (.int 1) ∧
        bound.find? "b" = some (.int 2) ∧ bound.find? "c" = some (.int 3)) ∧
      (localsFor ParameterBinding.function ⟨[], none⟩).Stops .scripted
        (Request.answer .scripted 0) ParameterBinding.world []
        (.raised ⟨.typeError, some "f() missing 2 required positional arguments: 'a', 'b'"⟩)
        ParameterBinding.world := by
  have hdistinct : ParameterBinding.code.parameters.Nodup := by decide
  obtain ⟨-, hgives, -, -⟩ := localsFor_binds .scripted (Request.answer .scripted 0)
    ParameterBinding.world ParameterBinding.function rfl rfl hdistinct
    (by decide) [.int 1] (some 1)
  obtain ⟨-, -, -, hlacking⟩ := localsFor_binds .scripted (Request.answer .scripted 0)
    ParameterBinding.world ParameterBinding.function rfl rfl hdistinct
    (by decide) [] none
  constructor
  · have hknown : ∀ key, (Entries.empty.insert "b" (Value.int 2)).contains key →
        ∃ index, 1 ≤ index ∧ ["a", "b", "c"][index]? = some key := by
      intro key hkey
      rw [Entries.contains_insert, Bool.or_eq_true] at hkey
      obtain hkey | hnone := hkey
      · exact ⟨1, Nat.le_refl 1, congrArg some (beq_iff_eq.mp hkey).symm⟩
      · cases hnone
    have hcomplete : ∀ index parameter, 1 ≤ index → index < 2 →
        ["a", "b", "c"][index]? = some parameter →
        (Entries.empty.insert "b" (Value.int 2)).contains parameter := by
      intro index parameter hpositional hrequired hindex
      obtain rfl : index = 1 := by omega
      obtain rfl : "b" = parameter := Option.some.inj hindex
      decide
    obtain ⟨scope, bound, final, hgives, -, hscope, -, hvalues⟩ :=
      hgives ⟨by decide, hknown, hcomplete⟩
    exact ⟨scope, bound, final, hgives, (hscope scope).trans (if_pos rfl), hvalues 0 "a" rfl,
      hvalues 1 "b" rfl, hvalues 2 "c" rfl⟩
  · refine hlacking (Nat.zero_le _) (fun key hkey ↦ nomatch hkey) fun hcomplete ↦ ?_
    cases hcomplete 0 "a" (Nat.zero_le _) (by decide) rfl

end Metaobject
