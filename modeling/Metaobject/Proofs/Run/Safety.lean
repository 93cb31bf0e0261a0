import Metaobject.Proofs.Heap.WellFormed
import Metaobject.Proofs.Run.History

/-!
# Safe programs

A program is safe in a heap when it only asks for what may be asked for: every effect and every
request is admissible in the heap in which it is made, whatever was answered before, and the value
at the end is as it should be (`Program.Safe`). What may be asked for (`Effect.Admissible`,
`Request.Admissible`) and what is answered (`Effect.Yields`, `Request.Yields`) is stated of held
values and sound objects; between two steps the heap may become any later one (`Heap.Later`).

The rules of this module are those by which safety is proved, one for each way in which programs are
put together. The world answers admissible effects as it should (`Effect.answer_sound`), so a safe
program leads from a well-formed heap to a later one (`Program.Safe.run`) and passes only moments
that are sound (`Program.Safe.history`).
-/

set_option autoImplicit false
set_option relaxedAutoImplicit false

namespace Metaobject

variable {heap older newer : Heap}

/-! ### Later heaps -/

/-- A well-formed heap to which a heap has grown. -/
structure Heap.Later (older newer : Heap) : Prop where
  grows : older.GrowsTo newer
  formed : newer.WellFormed

theorem Heap.WellFormed.later_self (hformed : heap.WellFormed) : heap.Later heap :=
  ⟨.refl heap, hformed⟩

theorem Heap.Later.trans {middle : Heap} (hfirst : older.Later middle)
    (hsecond : middle.Later newer) : older.Later newer :=
  ⟨hfirst.grows.trans hsecond.grows, hsecond.formed⟩

/-- Whether all values of a collection are held. -/
def Heap.HoldsAll {Collection : Type} [Membership Value Collection] (heap : Heap)
    (values : Collection) : Prop :=
  ∀ value ∈ values, heap.Holds value

theorem Heap.HoldsAll.grow {Collection : Type} [Membership Value Collection] {values : Collection}
    (hvalues : older.HoldsAll values) (hgrows : older.GrowsTo newer) : newer.HoldsAll values :=
  fun value hvalue ↦ (hvalues value hvalue).grow hgrows

theorem Heap.HoldsAll.cons {value : Value} {values : List Value} (hvalue : heap.Holds value)
    (hvalues : heap.HoldsAll values) : heap.HoldsAll (value :: values) :=
  List.forall_mem_cons.mpr ⟨hvalue, hvalues⟩

theorem Heap.holdsAll_nil (heap : Heap) : heap.HoldsAll ([] : List Value) :=
  fun _ hvalue ↦ absurd hvalue List.not_mem_nil

theorem Heap.holdsAll_map {Item : Type} {form : Item → Value} {items : List Item}
    (hform : ∀ item ∈ items, heap.Holds (form item)) : heap.HoldsAll (items.map form) := by
  intro value hvalue
  obtain ⟨item, hitem, rfl⟩ := List.mem_map.mp hvalue
  exact hform item hitem

theorem Heap.holdsAll_some {value : Value} (hvalue : heap.Holds value) :
    heap.HoldsAll (some value) :=
  fun _ hsame ↦ Option.some.inj hsame ▸ hvalue

theorem Heap.holdsAll_optionMap {Item : Type} {form : Item → Value} {found : Option Item}
    (hform : ∀ item, found = some item → heap.Holds (form item)) :
    heap.HoldsAll (found.map form) := by
  intro value hvalue
  obtain ⟨item, hitem, rfl⟩ := Option.map_eq_some_iff.mp hvalue
  exact hform item hitem

theorem Heap.holdsAll_none (heap : Heap) : heap.HoldsAll (none : Option Value) :=
  fun _ hsame ↦ absurd hsame (by simp)

/-! ### Held arguments, frames and definitions -/

/-- Arguments that refer to what is there. -/
structure Arguments.Held (heap : Heap) (arguments : Arguments) : Prop where
  positional : heap.HoldsAll arguments.positional
  keywords : ∀ address ∈ arguments.keywords, heap.Holds (.dict address)

namespace Arguments

variable {arguments : Arguments}

theorem Held.grow (hheld : arguments.Held older) (hgrows : older.GrowsTo newer) :
    arguments.Held newer where
  positional := hheld.positional.grow hgrows
  keywords address haddress := (hheld.keywords address haddress).grow hgrows

theorem Held.cons (hheld : arguments.Held heap) {first : Value} (hfirst : heap.Holds first) :
    (arguments.cons first).Held heap where
  positional := hheld.positional.cons hfirst
  keywords := hheld.keywords

theorem held_ofList {positional : List Value} (hpositional : heap.HoldsAll positional) :
    (ofList positional).Held heap where
  positional := hpositional
  keywords _ haddress := absurd haddress (by simp [ofList])

/-- An empty keyword dict is left out; the other one stays as it is. -/
theorem held_of {positional : List Value} {keywords : Option Address}
    (hpositional : heap.HoldsAll positional)
    (hkeywords : ∀ address ∈ keywords, heap.Holds (.dict address)) :
    (Arguments.of heap positional keywords).Held heap where
  positional := hpositional
  keywords address haddress := hkeywords address (Option.mem_filter_iff.mp haddress).1

theorem holds_keywordList (hformed : heap.WellFormed) (arguments : Arguments) :
    ∀ pair ∈ arguments.keywordList heap, heap.Holds pair.2 := by
  unfold Arguments.keywordList
  split
  · exact hformed.entries _
  · exact fun _ hpair ↦ absurd hpair List.not_mem_nil

end Arguments

/-- A frame whose scopes and cells are there. -/
structure Frame.Held (heap : Heap) (frame : Frame) : Prop where
  globals : heap.Holds (.dict frame.globals)
  locals : heap.Holds (.dict frame.locals)
  closure : ∀ cell ∈ frame.closure, heap.Holds (.cell cell)

theorem Frame.Held.grow {frame : Frame} (hheld : frame.Held older) (hgrows : older.GrowsTo newer) :
    frame.Held newer where
  globals := hheld.globals.grow hgrows
  locals := hheld.locals.grow hgrows
  closure cell hcell := (hheld.closure cell hcell).grow hgrows

/-- A class definition whose metaclass may stand above the metaclasses of its bases. -/
structure ClassDefinition.Sound (heap : Heap) (definition : ClassDefinition) : Prop where
  bases : ∀ base ∈ definition.bases, heap.HasClass base
  metaclass : heap.HasClass definition.metaclass
  isMetatype : heap.isMetatype definition.metaclass
  isSubtype : ∀ base ∈ definition.bases,
    heap.isSubtype definition.metaclass (heap.metaclassOf base)
  attributes : heap.HoldsEntries definition.attributes

/-- Modules that are there. -/
def Settings.Held (heap : Heap) (settings : Settings) : Prop :=
  ∀ modules ∈ settings.modules, ∀ pair ∈ modules, heap.Holds (.moduleObject pair.2)

theorem Settings.Held.grow {settings : Settings} (hheld : settings.Held older)
    (hgrows : older.GrowsTo newer) : settings.Held newer :=
  fun modules hmodules pair hpair ↦ (hheld modules hmodules pair hpair).grow hgrows

/-! ### What may be asked for, and what is answered -/

/-- Whether an effect may be asked for in a heap: what it puts into the heap is sound, and the code
that it enters is there. -/
def Effect.Admissible (heap : Heap) : {Answer : Type} → Effect Answer → Prop
  | _, .newList items | _, .newIterator items => heap.HoldsAll items
  | _, .newDict entries | _, .newModule _ entries => heap.HoldsEntries entries
  | _, .newCell content => heap.HoldsAll content
  | _, .newClass definition => definition.Sound heap
  | _, .newInstance cls => heap.Holds (.userClass cls)
  | _, .newFunction record => record.Sound heap
  | _, .newMethod receiver function => heap.Holds receiver ∧ heap.Holds function
  | _, .bindName _ _ content | _, .storeAttribute _ _ content | _, .insertEntry _ _ content
  | _, .appendItem _ content | _, .setCell _ content | _, .fillCell _ content => heap.Holds content
  | _, .enterBody code => heap.Holds (.code code)
  | _, _ => True

/-- What the answer to an effect is, with the heaps before and after it. -/
def Effect.Yields (older newer : Heap) : {Answer : Type} → Effect Answer → Answer → Prop
  | _, .heap, answer => answer = older ∧ newer = older
  | _, .newList _, address => newer.Holds (.list address)
  | _, .newDict _, address => newer.Holds (.dict address)
  | _, .newCell _, address => newer.Holds (.cell address)
  | _, .newIterator _, address => newer.Holds (.iterator address)
  | _, .newClass definition, address =>
    ∃ record, newer.userClass? address = some record ∧ record.metaclass = definition.metaclass
  | _, .newInstance cls, address =>
    ∃ attributes, newer.instance? address = some (cls, attributes)
  | _, .newFunction _, address => newer.Holds (.function address)
  | _, .newMethod _ _, address => newer.Holds (.method address)
  | _, .newCode _, address => newer.Holds (.code address)
  | _, .newModule _ _, address => newer.Holds (.moduleObject address)
  | _, .newException _, address => newer.Holds (.exception address)
  | _, .takeItem _, item => newer.HoldsAll item
  | _, .takeAll _, items => newer.HoldsAll items
  | _, .importModule _, value | _, .compileSource _, value => newer.Holds value
  | _, _, _ => True

/-- Whether a request may be made in a heap. -/
def Request.Admissible (heap : Heap) : {Answer : Type} → Request Answer → Prop
  | _, .call callable arguments => heap.Holds callable ∧ arguments.Held heap
  | _, .runCode frame code => frame.Held heap ∧ heap.Holds (.code code)
  | _, .drain iterator => heap.Holds iterator

/-- What the answer to a request is in the heap after it. -/
def Request.Yields (newer : Heap) : {Answer : Type} → Request Answer → Answer → Prop
  | _, .call _ _, value => newer.Holds value
  | _, .runCode _ _, result => newer.HoldsAll result
  | _, .drain _, items => newer.HoldsAll items

/-! ### Safety -/

/-- Whether a program only asks for what it may ask for, and its value is as `post` says in the heap
at the end. -/
def Program.Safe : {Result : Type} → Program Result → Heap → (Heap → Result → Prop) → Prop
  | _, .done result, heap, post => post heap result
  | _, .raise _, _, _ | _, .fault _, _, _ => True
  | _, .perform effect next, heap, post =>
    effect.Admissible heap ∧ ∀ newer answer, heap.Later newer → effect.Yields heap newer answer →
      (next answer).Safe newer post
  | _, .ask request next, heap, post =>
    request.Admissible heap ∧ ∀ newer answer, heap.Later newer → request.Yields newer answer →
      (next answer).Safe newer post
  | _, .attempt _ body next, heap, post =>
    ∃ middle, body.Safe heap middle ∧
      (∀ newer answer, heap.Later newer → middle newer answer →
        (next (.ok answer)).Safe newer post) ∧
      ∀ newer exception, heap.Later newer → (next (.error exception)).Safe newer post

namespace Program.Safe

variable {Result First Second : Type}

/-! ### Rules -/

theorem pure {result : Result} {post : Heap → Result → Prop} (hresult : post heap result) :
    (pure result : Program Result).Safe heap post :=
  hresult

theorem bind {program : Program First} {next : First → Program Second}
    {middle : Heap → First → Prop} {post : Heap → Second → Prop} (hformed : heap.WellFormed)
    (hprogram : program.Safe heap middle)
    (hnext : ∀ newer answer, heap.Later newer → middle newer answer →
      (next answer).Safe newer post) : (program >>= next).Safe heap post := by
  show (program.bind next).Safe heap post
  induction program generalizing heap with
  | done result => exact hnext heap result hformed.later_self hprogram
  | raise | fault => trivial
  | perform effect continuation ih =>
    refine ⟨hprogram.1, fun newer answer hlater hanswer ↦ ?_⟩
    exact ih answer hlater.formed (hprogram.2 newer answer hlater hanswer)
      fun newest result hnewest ↦ hnext newest result (hlater.trans hnewest)
  | ask request continuation ih =>
    refine ⟨hprogram.1, fun newer answer hlater hanswer ↦ ?_⟩
    exact ih answer hlater.formed (hprogram.2 newer answer hlater hanswer)
      fun newest result hnewest ↦ hnext newest result (hlater.trans hnewest)
  | attempt handler body continuation _ ih =>
    obtain ⟨between, hbody, hok, herror⟩ := hprogram
    refine ⟨between, hbody, fun newer answer hlater hanswer ↦ ?_, fun newer exception hlater ↦ ?_⟩
    · exact ih _ hlater.formed (hok newer answer hlater hanswer)
        fun newest result hnewest ↦ hnext newest result (hlater.trans hnewest)
    · exact ih _ hlater.formed (herror newer exception hlater)
        fun newest result hnewest ↦ hnext newest result (hlater.trans hnewest)

theorem mono {program : Program Result} {first second : Heap → Result → Prop}
    (hformed : heap.WellFormed) (hprogram : program.Safe heap first)
    (hpost : ∀ newer result, heap.Later newer → first newer result → second newer result) :
    program.Safe heap second := by
  rw [← program.bind_done]
  exact bind hformed hprogram hpost

theorem heap_bind {next : Heap → Program Result} {post : Heap → Result → Prop}
    (hnext : (next heap).Safe heap post) : (Program.heap >>= next).Safe heap post := by
  refine ⟨trivial, fun newer answer _ hanswer ↦ ?_⟩
  obtain ⟨rfl, rfl⟩ := hanswer
  exact hnext

theorem effect {effect : Effect Result} {post : Heap → Result → Prop}
    (hadmissible : effect.Admissible heap)
    (hpost : ∀ newer answer, heap.Later newer → effect.Yields heap newer answer →
      post newer answer) : (Program.effect effect).Safe heap post :=
  ⟨hadmissible, hpost⟩

theorem effect_bind {effect : Effect First} {next : First → Program Result}
    {post : Heap → Result → Prop} (hadmissible : effect.Admissible heap)
    (hnext : ∀ newer answer, heap.Later newer → effect.Yields heap newer answer →
      (next answer).Safe newer post) : (Program.effect effect >>= next).Safe heap post :=
  ⟨hadmissible, hnext⟩

theorem request_bind (request : Request First) {next : First → Program Result}
    {post : Heap → Result → Prop} (hadmissible : request.Admissible heap)
    (hnext : ∀ newer answer, heap.Later newer → request.Yields newer answer →
      (next answer).Safe newer post) : (Program.request request >>= next).Safe heap post :=
  ⟨hadmissible, hnext⟩

theorem request (request : Request Result) (hadmissible : request.Admissible heap) :
    (Program.request request).Safe heap fun newer ↦ request.Yields newer :=
  ⟨hadmissible, fun _ _ _ hanswer ↦ hanswer⟩

theorem call {callable : Value} {arguments : Arguments} (hcallable : heap.Holds callable)
    (harguments : arguments.Held heap) :
    (Program.call callable arguments).Safe heap Heap.Holds :=
  request (.call callable arguments) ⟨hcallable, harguments⟩

/-- A new object, given that its address yields a value that is held. -/
theorem new {effect : Effect Address} {form : Address → Value}
    (hadmissible : effect.Admissible heap)
    (hform : ∀ newer address, effect.Yields heap newer address → newer.Holds (form address)) :
    (Program.new effect form).Safe heap Heap.Holds :=
  ⟨hadmissible, fun newer address _ haddress ↦ hform newer address haddress⟩

theorem ofExcept {outcome : Except Exception Result} {post : Heap → Result → Prop}
    (hpost : ∀ result, outcome = .ok result → post heap result) :
    (Program.ofExcept outcome).Safe heap post := by
  cases outcome with
  | ok result => exact hpost result rfl
  | error => trivial

theorem ofExcept_bind {outcome : Except Exception First} {next : First → Program Result}
    {post : Heap → Result → Prop}
    (hnext : ∀ result, outcome = .ok result → (next result).Safe heap post) :
    (Program.ofExcept outcome >>= next).Safe heap post := by
  cases outcome with
  | ok result => exact hnext result rfl
  | error => trivial

theorem ofExcept_map {outcome : Except Exception First} {form : First → Result}
    {post : Heap → Result → Prop} (hpost : ∀ result, post heap (form result)) :
    (Program.ofExcept (outcome.map form)).Safe heap post := by
  cases outcome with
  | ok result => exact hpost result
  | error => trivial

theorem ofFailure_bind {outcome : Except Failure First} {next : First → Program Result}
    {post : Heap → Result → Prop}
    (hnext : ∀ result, outcome = .ok result → (next result).Safe heap post) :
    (Program.ofFailure outcome >>= next).Safe heap post := by
  cases outcome with
  | ok result => exact hnext result rfl
  | error failure => cases failure <;> trivial

theorem ofFailure_map {outcome : Except Failure First} {form : First → Result}
    {post : Heap → Result → Prop} (hpost : ∀ result, post heap (form result)) :
    (Program.ofFailure (outcome.map form)).Safe heap post := by
  cases outcome with
  | ok result => exact hpost result
  | error failure => cases failure <;> trivial

theorem handling_bind {handler : Handler} {program : Program First}
    {next : Except Exception First → Program Result} {middle : Heap → First → Prop}
    {post : Heap → Result → Prop} (hprogram : program.Safe heap middle)
    (hok : ∀ newer answer, heap.Later newer → middle newer answer →
      (next (.ok answer)).Safe newer post)
    (herror : ∀ newer exception, heap.Later newer → (next (.error exception)).Safe newer post) :
    (Program.handling handler program >>= next).Safe heap post :=
  ⟨middle, hprogram, hok, herror⟩

end Program.Safe

end Metaobject
