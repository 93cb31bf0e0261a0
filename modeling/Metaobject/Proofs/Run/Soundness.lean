import Metaobject.Proofs.Run.Requests
import Metaobject.Proofs.Run.Safety

/-!
# Safe programs lead to later heaps

The world answers an admissible effect with a later heap and an answer that the effect yields
(`Effect.answer_sound`). If requests are answered as soundly, the run of a safe program ends in a
later heap with a value that is as it should be (`Program.Safe.run`), and its history consists of
moments at well-formed heaps in which every request made is admissible (`Program.Safe.history`,
`Program.Safe.asked`).
-/

set_option autoImplicit false
set_option relaxedAutoImplicit false

namespace Metaobject

/-! ### Sound outcomes -/

/-- Whether the heap at the end of a run is later than the given one, and the value, if there is
one, is as `post` says. -/
def Ending.Sound {Result : Type} (heap : Heap) (post : Heap → Result → Prop)
    (outcome : Ending Result × World) : Prop :=
  heap.Later outcome.2.heap ∧ ∀ result, outcome.1 = .value result → post outcome.2.heap result

namespace Ending

variable {First Second Result : Type} {heap : Heap} {post : Heap → Result → Prop} {world : World}

theorem sound_value {result : Result} (hlater : heap.Later world.heap)
    (hresult : post world.heap result) : Sound heap post (.value result, world) := by
  refine ⟨hlater, fun other hother ↦ ?_⟩
  obtain rfl := Ending.value.inj hother
  exact hresult

theorem sound_raised {exception : Exception} (hlater : heap.Later world.heap) :
    Sound heap post (.raised exception, world) :=
  ⟨hlater, fun _ hvalue ↦ nomatch hvalue⟩

theorem sound_fault {message : String} (hlater : heap.Later world.heap) :
    Sound heap post (.fault message, world) :=
  ⟨hlater, fun _ hvalue ↦ nomatch hvalue⟩

theorem sound_exhausted (hlater : heap.Later world.heap) :
    Sound heap post (.exhausted, world) :=
  ⟨hlater, fun _ hvalue ↦ nomatch hvalue⟩

theorem Sound.andThen {outcome : Ending First × World}
    {next : First → World → Ending Second × World} {middle : Heap → First → Prop}
    {post : Heap → Second → Prop} (hfirst : Sound heap middle outcome)
    (hnext : ∀ result world, heap.Later world.heap → middle world.heap result →
      Sound world.heap post (next result world)) :
    Sound heap post (Ending.andThen outcome next) := by
  obtain ⟨ending, world⟩ := outcome
  obtain ⟨hlater, hvalue⟩ := hfirst
  cases ending with
  | value result =>
    have hsecond := hnext result world hlater (hvalue result rfl)
    exact ⟨hlater.trans hsecond.1, hsecond.2⟩
  | raised => exact sound_raised hlater
  | fault => exact sound_fault hlater
  | exhausted => exact sound_exhausted hlater

theorem Sound.handled {handler : Handler} {outcome : Ending First × World}
    {next : Except Exception First → World → Ending Second × World} {middle : Heap → First → Prop}
    {post : Heap → Second → Prop} (hfirst : Sound heap middle outcome)
    (hok : ∀ result world, heap.Later world.heap → middle world.heap result →
      Sound world.heap post (next (.ok result) world))
    (herror : ∀ exception world, heap.Later world.heap →
      Sound world.heap post (next (.error exception) world)) :
    Sound heap post (Ending.handled handler outcome next) := by
  obtain ⟨ending, world⟩ := outcome
  obtain ⟨hlater, hvalue⟩ := hfirst
  cases ending with
  | value result =>
    have hsecond := hok result world hlater (hvalue result rfl)
    exact ⟨hlater.trans hsecond.1, hsecond.2⟩
  | raised exception =>
    by_cases htaken : handler.takes exception = true
    · have hsecond := herror exception world hlater
      simp only [Ending.handled, if_pos htaken]
      exact ⟨hlater.trans hsecond.1, hsecond.2⟩
    · simp only [Ending.handled, if_neg htaken]
      exact sound_raised hlater
  | fault => exact sound_fault hlater
  | exhausted => exact sound_exhausted hlater

end Ending

/-! ### Changes of containers -/

theorem Heap.lt_size_of_hasClass {heap : Heap} {address : Address}
    (hcls : heap.HasClass (.user address)) : address < heap.size := by
  obtain ⟨record, hrecord⟩ := Option.isSome_iff_exists.mp hcls
  exact lt_size_of_get? (userClass?_eq_some_iff.mp hrecord)

namespace Heap.WellFormed

variable {heap : Heap} {address : Address}

theorem later_updateDict (hformed : heap.WellFormed) (address : Address)
    {change : Entries Value → Entries Value}
    (hchange : ∀ entries, heap.HoldsEntries entries → heap.HoldsEntries (change entries)) :
    heap.Later (heap.updateDict address change) := by
  refine ⟨heap.growsTo_updateDict address change, ?_⟩
  unfold updateDict
  split
  · rename_i entries hentries
    have hobject := dict?_eq_some_iff.mp hentries
    exact hformed.replace hobject (.dict entries _) (hchange _ (hformed.sound _ _ hobject))
      (by simp)
  · exact hformed

theorem later_setCell (hformed : heap.WellFormed) (address : Address) {content : Value}
    (hcontent : heap.Holds content) : heap.Later (heap.setCell address content) := by
  refine ⟨heap.growsTo_setCell address content, ?_⟩
  unfold setCell
  split
  · rename_i old hold
    exact hformed.replace (cell?_eq_some_iff.mp hold) (.cell old _) (holdsAll_some hcontent)
      (by simp)
  · exact hformed

theorem later_append (hformed : heap.WellFormed) (address : Address) {item : Value}
    (hitem : heap.Holds item) : heap.Later (heap.append address item) := by
  refine ⟨heap.growsTo_append address item, ?_⟩
  unfold append
  split
  · rename_i items hitems
    have hobject := list?_eq_some_iff.mp hitems
    refine hformed.replace hobject (.list items _) (fun other hother ↦ ?_) (by simp)
    rcases List.mem_append.mp hother with hearlier | hlast
    · exact hformed.sound _ _ hobject other hearlier
    · exact List.mem_singleton.mp hlast ▸ hitem
  · exact hformed

theorem later_advance (hformed : heap.WellFormed) (address : Address) {remaining : List Value}
    (hremaining : heap.HoldsAll remaining) : heap.Later (heap.advance address remaining) := by
  refine ⟨heap.growsTo_advance address remaining, ?_⟩
  unfold advance
  split
  · rename_i old hold
    exact hformed.replace hold (.iterator old _) hremaining (by simp)
  · exact hformed

end Heap.WellFormed

/-! ### Answers to effects -/

namespace ClassDefinition.Sound

variable {older newer heap : Heap} {definition : ClassDefinition}

theorem grow (hdefinition : definition.Sound older) (hgrows : older.GrowsTo newer) :
    definition.Sound newer where
  bases base hbase := hgrows.hasClass (hdefinition.bases base hbase)
  metaclass := hgrows.hasClass hdefinition.metaclass
  isMetatype := by
    rw [Heap.isMetatype, hgrows.isSubtype hdefinition.metaclass]
    exact hdefinition.isMetatype
  isSubtype base hbase := by
    rw [hgrows.isSubtype hdefinition.metaclass, hgrows.metaclassOf (hdefinition.bases base hbase)]
    exact hdefinition.isSubtype base hbase
  attributes := hdefinition.attributes.grow hgrows

/-- The class that a sound definition makes is grounded where it is put next. -/
theorem grounded (hdefinition : definition.Sound heap) {linearization : List ClassRef}
    (hlinearized : heap.linearize definition.bases = .ok linearization) (dict : Address) :
    (⟨definition.name, definition.metaclass, definition.bases, linearization, dict⟩ :
      ClassRecord).Grounded heap heap.size where
  base_older base hbase := ⟨Heap.lt_size_of_hasClass (hdefinition.bases _ hbase),
    hdefinition.bases _ hbase⟩
  linearized := hlinearized
  metaclass_older metaclass hmetaclass := by
    have hcls : heap.HasClass (.user metaclass) := hmetaclass ▸ hdefinition.metaclass
    exact ⟨Heap.lt_size_of_hasClass hcls, hcls⟩
  metaclass_isMetatype := hdefinition.isMetatype
  metaclass_isSubtype := hdefinition.isSubtype

end ClassDefinition.Sound

namespace World

variable {world : World}

theorem create_sound {object : Object} {post : Heap → Address → Prop}
    (hformed : world.heap.WellFormed) (hobject : object.Sound world.heap)
    (hkind : ∀ record, object ≠ .userClass record)
    (hpost : ∀ (newer : Heap) address, newer.get? address = some object → post newer address) :
    Ending.Sound world.heap post (world.create object) :=
  Ending.sound_value ⟨world.heap.growsTo_allocate object, hformed.allocate hobject hkind⟩
    (hpost _ _ (world.heap.get?_allocate_size object))

theorem createWithDict_sound {entries : Entries Value} {object : Address → Object}
    {post : Heap → Address → Prop} (hformed : world.heap.WellFormed)
    (hentries : world.heap.HoldsEntries entries)
    (hobject : ∀ newer dict, world.heap.Later newer → newer.Holds (.dict dict) →
      (newer.allocate (object dict)).WellFormed)
    (hpost : ∀ (newer : Heap) address dict, newer.get? address = some (object dict) →
      post newer address) :
    Ending.Sound world.heap post (world.createWithDict entries object) := by
  have hdict : world.heap.Later (world.heap.allocate (.dict entries)) :=
    ⟨world.heap.growsTo_allocate _, hformed.allocate hentries (by simp)⟩
  have hnew := world.heap.get?_allocate_size (.dict entries)
  refine Ending.sound_value ⟨hdict.grows.trans (Heap.growsTo_allocate _ _), ?_⟩
    (hpost _ _ _ (Heap.get?_allocate_size _ _))
  exact hobject _ _ hdict (Heap.holds_dict.mpr (Option.isSome_of_eq_some
    (Heap.dict?_eq_some_iff.mpr hnew)))

theorem change_sound {change : Heap → Heap} (hlater : world.heap.Later (change world.heap)) :
    Ending.Sound world.heap (fun _ _ ↦ True) (world.change change) :=
  Ending.sound_value hlater trivial

/-- A new class stands where its bases and its metaclass put it. -/
theorem createClass_sound {definition : ClassDefinition} (hformed : world.heap.WellFormed)
    (hdefinition : definition.Sound world.heap) :
    Ending.Sound world.heap (fun newer ↦ (Effect.newClass definition).Yields world.heap newer)
      (world.createClass definition) := by
  unfold createClass
  split
  · exact Ending.sound_raised hformed.later_self
  · rename_i linearization hlinearization
    refine createWithDict_sound hformed hdefinition.attributes (fun newer dict hlater hdict ↦ ?_)
      fun newer address dict hobject ↦ ⟨_, Heap.userClass?_eq_some_iff.mpr hobject, rfl⟩
    have hlinearized := hlater.grows.linearize hdefinition.bases hlinearization
    exact hlater.formed.allocate_class hdict
      ((hdefinition.grow hlater.grows).grounded hlinearized dict)

theorem storeAttribute_sound (hformed : world.heap.WellFormed) (holder : Address) (name : String)
    {content : Value} (hcontent : world.heap.Holds content) :
    Ending.Sound world.heap (fun _ _ ↦ True) (world.storeAttribute holder name content) := by
  unfold storeAttribute
  split
  · exact change_sound (hformed.later_updateDict _ fun _ hentries ↦ hentries.insert hcontent name)
  · exact Ending.sound_value hformed.later_self trivial

theorem fillCell_sound (hformed : world.heap.WellFormed) (cell : Address) {content : Value}
    (hcontent : world.heap.Holds content) :
    Ending.Sound world.heap (fun _ _ ↦ True) (world.fillCell cell content) := by
  unfold fillCell
  split
  · exact change_sound (hformed.later_setCell cell hcontent)
  · exact Ending.sound_fault hformed.later_self

theorem emit_sound (hformed : world.heap.WellFormed)
    (operation : Output → Except Exception Output) :
    Ending.Sound world.heap (fun _ _ ↦ True) (world.emit operation) := by
  unfold emit
  split
  · exact Ending.sound_value hformed.later_self trivial
  · exact Ending.sound_raised hformed.later_self

theorem importModule_sound {settings : Settings} (hformed : world.heap.WellFormed)
    (hsettings : settings.Held world.heap) (request : ImportRequest) :
    Ending.Sound world.heap Heap.Holds (world.importModule settings request) := by
  unfold importModule
  split
  · exact Ending.sound_raised hformed.later_self
  · rename_i modules hmodules
    dsimp only
    split
    · rename_i address hfound
      exact Ending.sound_value hformed.later_self
        (hsettings modules hmodules _ (Heap.mem_of_lookup hfound))
    · exact Ending.sound_raised hformed.later_self

theorem compileSource_sound {settings : Settings} (hformed : world.heap.WellFormed)
    (request : CompileRequest) :
    Ending.Sound world.heap Heap.Holds (world.compileSource settings request) := by
  unfold compileSource
  split
  · exact Ending.sound_fault hformed.later_self
  · split
    · exact Ending.sound_raised hformed.later_self
    · have hnew := world.heap.get?_allocate_size
        (.code ⟨"<module>", request.filename, [], false, .script (compiledBody request)⟩)
      exact Ending.sound_value ⟨world.heap.growsTo_allocate _, hformed.allocate trivial (by simp)⟩
        (Heap.holds_code.mpr (Option.isSome_of_eq_some (Heap.code?_eq_some_iff.mpr hnew)))

theorem enterBody_sound {settings : Settings} (hformed : world.heap.WellFormed) (code : Address) :
    Ending.Sound world.heap (fun _ _ ↦ True) (world.enterBody settings code) := by
  unfold enterBody
  split
  · exact Ending.sound_fault hformed.later_self
  · split
    · exact Ending.sound_fault hformed.later_self
    · split
      · exact Ending.sound_value hformed.later_self trivial
      · exact Ending.sound_fault hformed.later_self

/-- The entries of a new module hold what was given, and the name. -/
theorem holdsEntries_moduleEntries {heap : Heap} (name : String) {entries : Entries Value}
    (hentries : heap.HoldsEntries entries) :
    heap.HoldsEntries (moduleEntries name entries) := by
  unfold moduleEntries
  split
  · exact hentries
  · exact hentries.insert (.text name) "__name__"

end World

/-- The world answers an admissible effect with a later heap and what the effect yields. -/
theorem Effect.answer_sound {settings : Settings} {world : World} (hformed : world.heap.WellFormed)
    (hsettings : settings.Held world.heap) {Answer : Type} (effect : Effect Answer)
    (hadmissible : effect.Admissible world.heap) :
    Ending.Sound world.heap (fun newer ↦ effect.Yields world.heap newer)
      (effect.answer settings world) := by
  have hself := hformed.later_self
  cases effect with
  | heap => exact Ending.sound_value hself ⟨rfl, rfl⟩
  | depth => exact Ending.sound_value hself trivial
  | reportMetaclass | reportClass => exact Ending.sound_value hself trivial
  | permitBits bits =>
    simp only [Effect.answer]
    split
    · exact Ending.sound_raised hself
    · exact Ending.sound_value hself trivial
  | newList items =>
    exact World.create_sound hformed hadmissible (by simp) fun newer address hobject ↦
      Heap.holds_list.mpr (Option.isSome_of_eq_some (Heap.list?_eq_some_iff.mpr hobject))
  | newDict entries =>
    exact World.create_sound hformed hadmissible (by simp) fun newer address hobject ↦
      Heap.holds_dict.mpr (Option.isSome_of_eq_some (Heap.dict?_eq_some_iff.mpr hobject))
  | newCell content =>
    exact World.create_sound hformed hadmissible (by simp) fun newer address hobject ↦
      Heap.holds_cell.mpr (Option.isSome_of_eq_some (Heap.cell?_eq_some_iff.mpr hobject))
  | newIterator items =>
    exact World.create_sound hformed hadmissible (by simp) fun newer address hobject ↦
      .iterator address items hobject
  | newClass definition => exact World.createClass_sound hformed hadmissible
  | newInstance cls =>
    refine World.createWithDict_sound hformed (Heap.holdsEntries_empty _)
      (fun newer dict hlater hdict ↦ ?_)
      fun newer address dict hobject ↦ ⟨dict, Heap.instance?_eq_some_iff.mpr hobject⟩
    exact hlater.formed.allocate ⟨Heap.Holds.grow hlater.grows hadmissible, hdict⟩ (by simp)
  | newFunction record =>
    exact World.create_sound hformed hadmissible (by simp) fun newer address hobject ↦
      Heap.holds_function.mpr (Option.isSome_of_eq_some (Heap.function?_eq_some_iff.mpr hobject))
  | newMethod receiver function =>
    exact World.create_sound hformed hadmissible (by simp) fun newer address hobject ↦
      Heap.holds_method.mpr (Option.isSome_of_eq_some (Heap.method?_eq_some_iff.mpr hobject))
  | newCode record =>
    exact World.create_sound hformed trivial (by simp) fun newer address hobject ↦
      Heap.holds_code.mpr (Option.isSome_of_eq_some (Heap.code?_eq_some_iff.mpr hobject))
  | newModule name entries =>
    refine World.createWithDict_sound hformed (World.holdsEntries_moduleEntries name hadmissible)
      (fun newer dict hlater hdict ↦ hlater.formed.allocate hdict (by simp))
      fun newer address dict hobject ↦ ?_
    exact Heap.holds_moduleObject.mpr
      (Option.isSome_of_eq_some (Heap.module?_eq_some_iff.mpr hobject))
  | newException exception =>
    exact World.create_sound hformed trivial (by simp) fun newer address hobject ↦
      Heap.holds_exception.mpr
        (Option.isSome_of_eq_some (Heap.exception?_eq_some_iff.mpr hobject))
  | bindName scope name content =>
    exact World.change_sound
      (hformed.later_updateDict scope fun _ hentries ↦ hentries.insert hadmissible name)
  | storeAttribute holder name content =>
    exact World.storeAttribute_sound hformed holder name hadmissible
  | insertEntry dict key content =>
    exact World.change_sound
      (hformed.later_updateDict dict fun _ hentries ↦ hentries.insert hadmissible key)
  | eraseEntry dict key =>
    exact World.change_sound (hformed.later_updateDict dict fun _ hentries ↦ hentries.erase key)
  | appendItem list item => exact World.change_sound (hformed.later_append list hadmissible)
  | setCell cell content => exact World.change_sound (hformed.later_setCell cell hadmissible)
  | fillCell cell content => exact World.fillCell_sound hformed cell hadmissible
  | takeItem iterator =>
    have hremaining := hformed.remaining iterator
    simp only [Effect.answer]
    split
    · exact Ending.sound_value hself (Heap.holdsAll_none _)
    · rename_i item rest hitems
      rw [hitems, List.forall_mem_cons] at hremaining
      have hlater := hformed.later_advance iterator hremaining.2
      exact Ending.sound_value hlater (Heap.holdsAll_some (hremaining.1.grow hlater.grows))
  | takeAll iterator =>
    have hlater := hformed.later_advance iterator (Heap.holdsAll_nil _)
    exact Ending.sound_value hlater
      (Heap.HoldsAll.grow (hformed.remaining iterator) hlater.grows)
  | write text => exact World.emit_sound hformed _
  | flush => exact World.emit_sound hformed _
  | importModule request => exact World.importModule_sound hformed hsettings request
  | compileSource request => exact World.compileSource_sound hformed request
  | enterBody code => exact World.enterBody_sound hformed code

/-! ### Runs of safe programs -/

/-- Whether requests that may be made are answered with a later heap and what they yield. -/
def SoundResponder (settings : Settings)
    (respond : {Answer : Type} → Request Answer → World → Ending Answer × World) : Prop :=
  ∀ {Answer : Type} (request : Request Answer) (world : World), world.heap.WellFormed →
    settings.Held world.heap → request.Admissible world.heap →
      Ending.Sound world.heap (fun newer ↦ request.Yields newer) (respond request world)

/-- A moment of a run from a heap on: the heaps before and after it are later ones, and a request
made is admissible. -/
structure Moment.Sound (heap : Heap) (moment : Moment) : Prop where
  before : heap.Later moment.before.heap
  after : moment.before.heap.Later moment.after.heap
  admissible : ∀ {Answer : Type} (request : Request Answer), moment.action = .asks request →
    request.Admissible moment.before.heap

theorem Moment.Sound.of_later {older newer : Heap} {moment : Moment} (hlater : older.Later newer)
    (hmoment : moment.Sound newer) : moment.Sound older where
  before := hlater.trans hmoment.before
  after := hmoment.after
  admissible := hmoment.admissible

/-- Whether what happens for requests that may be made is sound. -/
def SoundHistories (settings : Settings)
    (inside : {Answer : Type} → Request Answer → World → List Moment) : Prop :=
  ∀ {Answer : Type} (request : Request Answer) (world : World), world.heap.WellFormed →
    settings.Held world.heap → request.Admissible world.heap →
      ∀ moment ∈ inside request world, moment.Sound world.heap

namespace Program.Safe

variable {settings : Settings}
  {respond : {Answer : Type} → Request Answer → World → Ending Answer × World}
  {inside : {Answer : Type} → Request Answer → World → List Moment}

/-- A safe program leads to a later heap and to a value that is as it should be. -/
theorem run (hrespond : SoundResponder settings respond) {Result : Type}
    {program : Program Result} {post : Heap → Result → Prop} {world : World}
    (hformed : world.heap.WellFormed) (hsettings : settings.Held world.heap)
    (hsafe : program.Safe world.heap post) :
    Ending.Sound world.heap post (program.run settings respond world) := by
  induction program generalizing world with
  | done result => exact Ending.sound_value hformed.later_self hsafe
  | raise => exact Ending.sound_raised hformed.later_self
  | fault => exact Ending.sound_fault hformed.later_self
  | perform effect next ih =>
    exact (effect.answer_sound hformed hsettings hsafe.1).andThen
      fun answer reached hlater hanswer ↦ ih answer hlater.formed (hsettings.grow hlater.grows)
        (hsafe.2 _ answer hlater hanswer)
  | ask request next ih =>
    exact (hrespond request world hformed hsettings hsafe.1).andThen
      fun answer reached hlater hanswer ↦ ih answer hlater.formed (hsettings.grow hlater.grows)
        (hsafe.2 _ answer hlater hanswer)
  | attempt handler body next ihbody ihnext =>
    obtain ⟨middle, hbody, hok, herror⟩ := hsafe
    refine (ihbody hformed hsettings hbody).handled (fun answer reached hlater hanswer ↦ ?_)
      fun exception reached hlater ↦ ?_
    · exact ihnext _ hlater.formed (hsettings.grow hlater.grows) (hok _ answer hlater hanswer)
    · exact ihnext _ hlater.formed (hsettings.grow hlater.grows) (herror _ exception hlater)

/-- The history of a safe program has sound moments only. -/
theorem history (hrespond : SoundResponder settings respond)
    (hinside : SoundHistories settings inside) {Result : Type} {program : Program Result}
    {post : Heap → Result → Prop} {world : World} (hformed : world.heap.WellFormed)
    (hsettings : settings.Held world.heap) (hsafe : program.Safe world.heap post) :
    ∀ moment ∈ program.history settings respond inside world, moment.Sound world.heap := by
  induction program generalizing world with
  | done | raise | fault => exact fun _ hmoment ↦ absurd hmoment List.not_mem_nil
  | perform effect next ih =>
    obtain ⟨hlater, hyields⟩ := effect.answer_sound hformed hsettings hsafe.1
    intro moment hmoment
    rcases List.mem_cons.mp hmoment with rfl | hrest
    · exact ⟨hformed.later_self, hlater, fun _ hasks ↦ nomatch hasks⟩
    · obtain ⟨answer, hanswer, hnext⟩ := Ending.mem_onward.mp hrest
      exact (ih answer hlater.formed (hsettings.grow hlater.grows)
        (hsafe.2 _ answer hlater (hyields answer hanswer)) moment hnext).of_later hlater
  | ask request next ih =>
    obtain ⟨hlater, hyields⟩ := hrespond request world hformed hsettings hsafe.1
    intro moment hmoment
    rcases List.mem_append.mp hmoment with hrequest | hrest
    · exact hinside request world hformed hsettings hsafe.1 moment hrequest
    · obtain ⟨answer, hanswer, hnext⟩ := Ending.mem_onward.mp hrest
      exact (ih answer hlater.formed (hsettings.grow hlater.grows)
        (hsafe.2 _ answer hlater (hyields answer hanswer)) moment hnext).of_later hlater
  | attempt handler body next ihbody ihnext =>
    obtain ⟨middle, hbody, hok, herror⟩ := hsafe
    obtain ⟨hlater, hvalue⟩ := hbody.run hrespond hformed hsettings
    have hheld := hsettings.grow hlater.grows
    intro moment hmoment
    rcases List.mem_append.mp hmoment with hearlier | hrest
    · exact ihbody hformed hsettings hbody moment hearlier
    · obtain ⟨answer, hanswer, hnext⟩ | ⟨exception, -, hnext⟩ :=
        Ending.exists_of_mem_handledOnward hrest
      · exact (ihnext _ hlater.formed hheld (hok _ answer hlater (hvalue answer hanswer)) moment
          hnext).of_later hlater
      · exact (ihnext _ hlater.formed hheld (herror _ exception hlater) moment hnext).of_later
          hlater

/-- The requests that a safe program makes are admissible where it makes them. -/
theorem asked (hrespond : SoundResponder settings respond) {Result : Type}
    {program : Program Result} {post : Heap → Result → Prop} {world : World}
    (hformed : world.heap.WellFormed) (hsettings : settings.Held world.heap)
    (hsafe : program.Safe world.heap post) :
    ∀ moment ∈ program.asked settings respond world, moment.Sound world.heap := by
  have hmoments : SoundHistories settings fun request world ↦ [request.moment respond world] := by
    intro Answer request world hformed hsettings hadmissible moment hmoment
    obtain rfl := List.mem_singleton.mp hmoment
    refine ⟨hformed.later_self, (hrespond request world hformed hsettings hadmissible).1, ?_⟩
    rintro Other other ⟨⟩
    exact hadmissible
  intro moment hmoment
  exact hsafe.history hrespond hmoments hformed hsettings moment (List.mem_filter.mp hmoment).1

end Program.Safe

end Metaobject
