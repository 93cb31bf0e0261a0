import Metaobject.Proofs.Entries
import Metaobject.Proofs.Run.Deeds

/-!
# What printing does

What a call of `print` does in any surroundings, whatever the conversions of the values do and
however the output answers (`Print.Course`, `Print.course_of_does`): it checks its keywords,
converts the values in order, and then writes once, unless something before that was cut. Which
keywords are accepted, and what they ask for, is read off the keyword dict
(`Print.Options.ofKeywords_eq_ok_iff`).
-/

set_option autoImplicit false
set_option relaxedAutoImplicit false

namespace Metaobject.Print

/-! ### Keywords -/

/-- Whether a keyword argument is accepted. -/
def Accepts (key : String) (value : Value) : Prop :=
  (key = "sep" ∨ key = "end") ∧ (value = .null ∨ ∃ content, value = .text content) ∨
    key = "file" ∧ value = .null ∨ key = "flush"

/-- The text that a text option stands for; `null` and an absent option stand for the standard. -/
def givenText (standard : String) : Option Value → String
  | some (.text content) => content
  | _ => standard

namespace Options

/-- The options that a keyword dict asks for: a blank between values and a newline after them if
nothing else is given, and flushing if that is given as true. -/
def requested (heap : Heap) (keywords : Entries Value) : Options where
  separator := givenText " " (keywords.find? "sep")
  terminator := givenText "\n" (keywords.find? "end")
  flushes := (keywords.find? "flush").any heap.isTrue

/-- The text for values whose conversions are given. -/
def format (options : Options) (texts : List String) : String :=
  options.separator.intercalate texts ++ options.terminator

/-- The options with one keyword argument set, if it is accepted. -/
def set (heap : Heap) (options : Options) (pair : String × Value) : Options where
  separator := if pair.1 = "sep" then givenText " " (some pair.2) else options.separator
  terminator := if pair.1 = "end" then givenText "\n" (some pair.2) else options.terminator
  flushes := if pair.1 = "flush" then heap.isTrue pair.2 else options.flushes

theorem apply_eq_ok_iff {heap : Heap} {options result : Options} {key : String} {value : Value} :
    options.apply heap key value = .ok result ↔
      Accepts key value ∧ result = options.set heap (key, value) := by
  unfold apply
  split
  · cases value <;> simp [textOption, Accepts, set, givenText, Except.map, eq_comm, standard]
  · cases value <;> simp [textOption, Accepts, set, givenText, Except.map, eq_comm, standard]
  · cases value <;> simp [Value.isNull, Accepts, set]
    exact eq_comm
  · simp [Accepts, set, eq_comm]
  · rename_i hsep hend hfile hflush
    refine ⟨fun hok ↦ (nomatch hok), ?_⟩
    rintro ⟨⟨hsame | hsame, -⟩ | ⟨hsame, -⟩ | hsame, -⟩
    · exact absurd hsame hsep
    · exact absurd hsame hend
    · exact absurd hsame hfile
    · exact absurd hsame hflush

/-- Keyword arguments are accepted one by one. -/
theorem foldlM_apply_eq_ok_iff {heap : Heap} {options result : Options}
    {keywords : List (String × Value)} :
    keywords.foldlM (fun options (key, value) ↦ options.apply heap key value) options =
        .ok result ↔
      (∀ pair ∈ keywords, Accepts pair.1 pair.2) ∧ result = keywords.foldl (set heap) options := by
  induction keywords generalizing options with
  | nil => simpa [pure, Except.pure] using eq_comm
  | cons pair rest ih =>
    obtain ⟨key, value⟩ := pair
    rw [List.foldlM_cons, List.forall_mem_cons, List.foldl_cons]
    dsimp only
    cases hfirst : options.apply heap key value with
    | error exception =>
      have hrefused : ¬Accepts key value := fun haccepts ↦ by
        rw [apply_eq_ok_iff.mpr ⟨haccepts, rfl⟩] at hfirst
        cases hfirst
      refine ⟨fun hok ↦ ?_, fun hall ↦ absurd hall.1.1 hrefused⟩
      cases hok
    | ok middle =>
      obtain ⟨haccepts, rfl⟩ := apply_eq_ok_iff.mp hfirst
      rw [and_assoc, and_iff_right haccepts]
      exact ih

theorem elim_lookup_cons {Content Found : Type} {key name : String} {content : Content}
    {rest : List (String × Content)} (hkey : key ∉ rest.map Prod.fst) (absent : Found)
    (form : Content → Found) :
    (rest.lookup name).elim (if key = name then form content else absent) form =
      (((key, content) :: rest).lookup name).elim absent form := by
  by_cases hsame : key = name
  · subst hsame
    rw [if_pos rfl, Entries.lookup_eq_none_of_not_mem hkey, Entries.lookup_cons_self]
    rfl
  · rw [if_neg hsame, Entries.lookup_cons_ne _ _ (Ne.symm hsame)]

/-- The keywords set are those of the dict, since no key occurs twice in it. -/
theorem foldl_set {heap : Heap} {options : Options} {keywords : List (String × Value)}
    (hnodup : (keywords.map Prod.fst).Nodup) :
    keywords.foldl (set heap) options =
      { separator := (keywords.lookup "sep").elim options.separator fun value ↦
          givenText " " (some value)
        terminator := (keywords.lookup "end").elim options.terminator fun value ↦
          givenText "\n" (some value)
        flushes := (keywords.lookup "flush").elim options.flushes heap.isTrue } := by
  induction keywords generalizing options with
  | nil => rfl
  | cons pair rest ih =>
    obtain ⟨key, value⟩ := pair
    obtain ⟨hkey, hrest⟩ := List.nodup_cons.mp hnodup
    rw [List.foldl_cons, ih hrest, set, ← elim_lookup_cons hkey options.separator,
      ← elim_lookup_cons hkey options.terminator, ← elim_lookup_cons hkey options.flushes]

/-- The keyword arguments of a dict give options exactly if all are accepted, and which. -/
theorem ofKeywords_eq_ok_iff {heap : Heap} {options : Options} {keywords : Entries Value} :
    ofKeywords heap keywords.toList = .ok options ↔
      (∀ key value, keywords.find? key = some value → Accepts key value) ∧
        options = requested heap keywords := by
  have hall : (∀ pair ∈ keywords.toList, Accepts pair.1 pair.2) ↔
      ∀ key value, keywords.find? key = some value → Accepts key value := by
    simp only [Prod.forall, Entries.mem_toList_iff]
  have htext : ∀ (standard : String) (found : Option Value),
      (found.elim standard fun value ↦ givenText standard (some value)) =
        givenText standard found := by
    intro standard found
    cases found <;> rfl
  have hflag : ∀ found : Option Value, found.elim false heap.isTrue = found.any heap.isTrue := by
    intro found
    cases found <;> rfl
  have hset : keywords.toList.foldl (set heap) standard = requested heap keywords := by
    simp only [foldl_set keywords.keys_nodup, standard, htext, hflag]
    rfl
  rw [ofKeywords, foldlM_apply_eq_ok_iff, hall, hset]

end Options

/-- The keyword dict of a call; it is empty if no keywords are given. -/
def keywordDict (heap : Heap) (arguments : Arguments) : Entries Value :=
  arguments.keywords.elim .empty heap.entries

theorem toList_keywordDict (heap : Heap) (arguments : Arguments) :
    (keywordDict heap arguments).toList = arguments.keywordList heap := by
  rw [keywordDict, Arguments.keywordList]
  cases arguments.keywords <;> rfl

/-! ### The course of a call -/

/-- Conversions of values to text one after the other, each with what it does and its text. They
write nothing themselves. -/
def Converted (values : List Value) (conversions : List (List Deed × String)) : Prop :=
  List.Forall₂ (fun value conversion ↦
    (Operation.textOf value).Does conversion.1 (.value conversion.2) ∧
      ∀ deed ∈ conversion.1, deed.isOutput = false) values conversions

/-- What conversions do, in order. -/
def deedsOf (conversions : List (List Deed × String)) : List Deed := conversions.flatMap Prod.fst

/-- The texts of conversions, in order. -/
def textsOf (conversions : List (List Deed × String)) : List String := conversions.map Prod.snd

/-- What a call of `print` does after it has read the heap, and how it ends. -/
inductive Course (arguments : Arguments) (heap : Heap) : List Deed → Ending Value → Prop
  /-- The keywords are refused, and nothing is done. -/
  | refused {exception : Exception}
      (hkeywords : Options.ofKeywords heap (arguments.keywordList heap) = .error exception) :
      Course arguments heap [] (.raised exception)
  /-- A conversion is cut, and so is the call. Nothing is written. -/
  | unconverted {options : Options} {before after : List Value} {value : Value}
      {conversions : List (List Deed × String)} {last : List Deed} {cut : Cut}
      (hkeywords : Options.ofKeywords heap (arguments.keywordList heap) = .ok options)
      (hvalues : arguments.positional = before ++ value :: after)
      (hbefore : Converted before conversions)
      (hlast : (Operation.textOf value).Does last cut.ending)
      (hsilent : ∀ deed ∈ last, deed.isOutput = false) :
      Course arguments heap (deedsOf conversions ++ last) cut.ending
  /-- The writing is cut, and so is the call. Nothing is flushed. -/
  | unwritten {options : Options} {conversions : List (List Deed × String)} {cut : Cut}
      (hkeywords : Options.ofKeywords heap (arguments.keywordList heap) = .ok options)
      (hconverted : Converted arguments.positional conversions) :
      Course arguments heap (deedsOf conversions ++
        [.performs (.write (options.format (textsOf conversions))) cut.ending]) cut.ending
  /-- The text is written, and flushing is not asked for. -/
  | written {options : Options} {conversions : List (List Deed × String)}
      (hkeywords : Options.ofKeywords heap (arguments.keywordList heap) = .ok options)
      (hconverted : Converted arguments.positional conversions)
      (hflushes : options.flushes = false) :
      Course arguments heap (deedsOf conversions ++
        [.performs (.write (options.format (textsOf conversions))) (.value ())]) (.value .null)
  /-- The text is written, and the flushing that is asked for is cut, and so is the call. -/
  | unflushed {options : Options} {conversions : List (List Deed × String)} {cut : Cut}
      (hkeywords : Options.ofKeywords heap (arguments.keywordList heap) = .ok options)
      (hconverted : Converted arguments.positional conversions)
      (hflushes : options.flushes = true) :
      Course arguments heap (deedsOf conversions ++
        [.performs (.write (options.format (textsOf conversions))) (.value ()),
          .performs .flush cut.ending]) cut.ending
  /-- The text is written and flushed. -/
  | flushed {options : Options} {conversions : List (List Deed × String)}
      (hkeywords : Options.ofKeywords heap (arguments.keywordList heap) = .ok options)
      (hconverted : Converted arguments.positional conversions)
      (hflushes : options.flushes = true) :
      Course arguments heap (deedsOf conversions ++
        [.performs (.write (options.format (textsOf conversions))) (.value ()),
          .performs .flush (.value ())]) (.value .null)

theorem isOutput_of_textOf {value : Value} {deeds : List Deed} {ending : Ending String}
    (hdoes : (Operation.textOf value).Does deeds ending) :
    ∀ deed ∈ deeds, deed.isOutput = false :=
  (Operation.obeys_textOf value : (Operation.textOf value).Obeys .mute).isOutput_eq_false hdoes

/-- Values are converted in order, up to a conversion that is cut. -/
theorem cases_of_convertAll {values : List Value} {deeds : List Deed}
    {ending : Ending (List String)} (hdoes : (convertAll values).Does deeds ending) :
    (∃ conversions, Converted values conversions ∧ deeds = deedsOf conversions ∧
      ending = .value (textsOf conversions)) ∨
    ∃ before value after conversions last cut, values = before ++ value :: after ∧
      Converted before conversions ∧
        (Operation.textOf value).Does last (Cut.ending cut) ∧
          deeds = deedsOf conversions ++ last ∧ ending = cut.ending := by
  induction values generalizing deeds ending with
  | nil => exact Or.inl ⟨[], .nil, hdoes.1, hdoes.2⟩
  | cons value rest ih =>
    rcases hdoes.bind with ⟨text, first, others, hfirst, rfl, hothers⟩ | ⟨cut, hcut, rfl⟩
    · have hsilent := isOutput_of_textOf hfirst
      rcases hothers.bind with ⟨texts, middle, last, hmiddle, rfl, rfl, rfl⟩ | ⟨cut, hcut, rfl⟩
      · rcases ih hmiddle with ⟨conversions, hconverted, rfl, htexts⟩ |
          ⟨_, _, _, _, _, cut, _, _, _, _, hvalue⟩
        · obtain rfl := Ending.value.inj htexts
          exact Or.inl ⟨(first, text) :: conversions, .cons ⟨hfirst, hsilent⟩ hconverted,
            by simp [deedsOf], rfl⟩
        · exact absurd hvalue.symm (cut.ending_ne_value texts)
      · rcases ih hcut with ⟨_, _, _, hvalue⟩ |
          ⟨before, failing, after, conversions, last, reason, rfl, hbefore, hlast, rfl, hending⟩
        · exact absurd hvalue (cut.ending_ne_value _)
        · exact Or.inr ⟨value :: before, failing, after, (first, text) :: conversions, last,
            reason, rfl, .cons ⟨hfirst, hsilent⟩ hbefore, hlast, by simp [deedsOf], hending⟩
    · exact Or.inr ⟨[], value, rest, [], deeds, cut, rfl, .nil, hcut, rfl, rfl⟩

/-- The text for converted values is written at once, and flushed if that is asked for. -/
def output (options : Options) (texts : List String) : Program Value := do
  Program.effect (.write (options.format texts))
  if options.flushes then Program.effect .flush
  return .null

theorem run_eq (arguments : Arguments) : run arguments = (do
    let heap ← Program.heap
    let options ← .ofExcept (Options.ofKeywords heap (arguments.keywordList heap))
    let texts ← convertAll arguments.positional
    output options texts) :=
  rfl

/-- What a call of `print` does once its keywords are accepted and its values are converted. -/
theorem course_of_output {arguments : Arguments} {heap : Heap} {options : Options}
    {conversions : List (List Deed × String)} {later : List Deed} {ending : Ending Value}
    (hkeywords : Options.ofKeywords heap (arguments.keywordList heap) = .ok options)
    (hconverted : Converted arguments.positional conversions)
    (hlater : (output options (textsOf conversions)).Does later ending) :
    Course arguments heap (deedsOf conversions ++ later) ending := by
  rw [output] at hlater
  rcases hlater.bind with ⟨_, writes, rest, hwrites, rfl, hrest⟩ | ⟨cut, hcut, rfl⟩
  · obtain rfl := hwrites.of_effect
    cases hflushes : options.flushes with
    | false =>
      rw [hflushes] at hrest
      obtain ⟨rfl, rfl⟩ := hrest
      exact .written hkeywords hconverted hflushes
    | true =>
      rw [hflushes] at hrest
      rcases hrest.bind with ⟨_, flushes, _, hflush, rfl, rfl, rfl⟩ | ⟨cut, hcut, rfl⟩
      · obtain rfl := hflush.of_effect
        exact .flushed hkeywords hconverted hflushes
      · obtain rfl := hcut.of_effect
        exact .unflushed hkeywords hconverted hflushes
  · obtain rfl := hcut.of_effect
    exact .unwritten hkeywords hconverted

/-- In any surroundings a call of `print` that reads the heap takes one of these courses. -/
theorem course_of_does {arguments : Arguments} {heap : Heap} {deeds : List Deed}
    {ending : Ending Value}
    (hdoes : (run arguments).Does (.performs .heap (.value heap) :: deeds) ending) :
    Course arguments heap deeds ending := by
  rw [run_eq] at hdoes
  rcases hdoes with ⟨answer, later, hsame, hlater⟩ | ⟨cut, hsame, -⟩
  · cases hsame
    change (Program.ofExcept (Options.ofKeywords heap (arguments.keywordList heap)) >>= _).Does
      deeds ending at hlater
    cases hkeywords : Options.ofKeywords heap (arguments.keywordList heap) with
    | error exception =>
      rw [hkeywords] at hlater
      obtain ⟨rfl, rfl⟩ := hlater
      exact .refused hkeywords
    | ok options =>
      rw [hkeywords] at hlater
      change (convertAll arguments.positional >>= _).Does deeds ending at hlater
      rcases hlater.bind with ⟨texts, first, last, hfirst, rfl, hlast⟩ | ⟨cut, hcut, rfl⟩
      · rcases cases_of_convertAll hfirst with ⟨conversions, hconverted, rfl, htexts⟩ |
          ⟨_, _, _, _, _, cut, _, _, _, _, hvalue⟩
        · obtain rfl := Ending.value.inj htexts
          exact course_of_output hkeywords hconverted hlast
        · exact absurd hvalue.symm (cut.ending_ne_value texts)
      · rcases cases_of_convertAll hcut with ⟨_, _, _, hvalue⟩ |
          ⟨before, value, after, conversions, last, reason, hvalues, hbefore, hlast, rfl, hsame⟩
        · exact absurd hvalue (cut.ending_ne_value _)
        · obtain rfl := Cut.ending_injective hsame
          exact .unconverted hkeywords hvalues hbefore hlast (isOutput_of_textOf hlast)
  · cases cut <;> cases hsame

/-- A run of a call of `print` reads the heap and takes one of these courses. -/
theorem exists_course (settings : Settings)
    (respond : {Answer : Type} → Request Answer → World → Ending Answer × World)
    (arguments : Arguments) (world : World) :
    ∃ deeds, (run arguments).deeds settings respond world =
        .performs .heap (.value world.heap) :: deeds ∧
      Course arguments world.heap deeds ((run arguments).run settings respond world).1 := by
  have hdeeds := Program.deeds_heap settings respond (fun heap ↦ do
    let options ← .ofExcept (Options.ofKeywords heap (arguments.keywordList heap))
    let texts ← convertAll arguments.positional
    output options texts) world
  have hdoes := (run arguments).does_deeds settings respond world
  rw [run_eq, hdeeds] at hdoes
  exact ⟨_, hdeeds, course_of_does hdoes⟩

end Metaobject.Print
