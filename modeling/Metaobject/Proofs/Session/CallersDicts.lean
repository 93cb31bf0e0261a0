import Metaobject.Proofs.Builtin.ClassNamespace
import Metaobject.Proofs.Run.Frames

/-!
# The dicts of callers

A dict that is there when a call starts, be it the keywords, an argument, a scope or inside one of
them, keeps its entries unless code runs in a frame that has it, an attribute is stored in an object
that it belongs to, or a script edits it (`callers_dict_spared`). A script can do the last to
whatever dict it is given (`callers_dict_edited`). The class that `type` creates from a dict has a
copy of it, and each of the two goes its own way.
-/

set_option autoImplicit false
set_option relaxedAutoImplicit false

namespace Metaobject

/-! ### Calls spare the dicts of their callers -/

/-- Calls and the dicts that are there when they start, for every callable, all arguments and every
ending. A dict keeps its entries in their order if no code runs in a frame that has it, no attribute
is stored in an object that it belongs to, and no script sets or removes an entry of it. In
particular a keyword dict of `__build_class__` keeps the metaclass. Whatever the call does, the dict
is the attribute dict of the same objects after it, so of no class that the call creates. A class
that `type` creates from a dict has a copy of it for its namespace, and ever after the two only
change by what is written to each of them. Entries are set and removed by scripts alone: at what
happens in a call of anything but a user function, apart from the requests that it makes, no
variable is bound and no dict is edited. -/
theorem callers_dict_spared (settings : Settings) (world : World) (patience : Nat)
    (callable : Value) (arguments : Arguments) {dict : Address} {entries : Entries Value}
    (hdict : world.heap.dict? dict = some entries) :
    let call := Request.call callable arguments
    let moments := call.opening (Request.history settings patience) world
    let final := (call.answer settings patience world).2
    ((∀ moment ∈ moments, moment.uses settings dict = false ∧ moment.stored? ≠ some dict ∧
        moment.edited? ≠ some dict) →
      final.heap.dict? dict = some entries ∧
        (callable = .builtin (.function .buildClass) → arguments.keywords = some dict →
          (final.heap.entries dict).find? "metaclass" = entries.find? "metaclass")) ∧
    (∀ holder, final.heap.attributeDict? holder = some dict ↔
      world.heap.attributeDict? holder = some dict) ∧
    (∀ name bases cls, callable = .builtin (.type .type) →
      arguments.positional = [name, bases, .dict dict] →
      (call.answer settings patience world).1 = .value cls →
      ∃ (address : Address) (record : ClassRecord), cls = .userClass address ∧
        world.heap.userClass? address = none ∧ final.heap.userClass? address = some record ∧
        record.namespaceDict ≠ dict ∧ final.heap.dict? record.namespaceDict = some entries ∧
        final.heap.dict? dict = some entries ∧
        ∀ (between : List Moment) (older : World), Linked settings final between older →
          older.heap.attributeDict? address = some record.namespaceDict ∧
          ∀ (later : List Moment) (newer : World), Linked settings older later newer →
            ∀ kept ∈ [dict, record.namespaceDict], ∀ contents : Entries Value,
              older.heap.dict? kept = some contents →
              (∀ moment ∈ later, moment.target? ≠ some kept) →
              newer.heap.dict? kept = some contents) ∧
    ((∀ address, callable ≠ .function address) →
      ∀ moment ∈ (Call.dispatch callable arguments).history settings
          (Request.answer settings patience) (fun _ _ ↦ []) world,
        moment.bound? = none ∧ moment.edited? = none) := by
  intro call moments final
  have hlinked : Linked settings world (call.history settings patience world) final :=
    call.linked_history settings patience world
  refine ⟨fun hignored ↦ ?_, fun holder ↦ ?_, fun name bases cls hcallable hpositional hvalue ↦ ?_,
    fun hother moment hmoment ↦ ?_⟩
  · have hspares : Heap.Spares (· = dict) world.heap final.heap :=
      Request.spares (fun moment hmoment ↦ (hignored moment hmoment).1)
        (fun moment hmoment ↦ (hignored moment (List.mem_cons_of_mem _ hmoment)).2.1)
        fun moment hmoment ↦ (hignored moment (List.mem_cons_of_mem _ hmoment)).2.2
    have hkept := hspares.kept dict entries rfl hdict
    exact ⟨hkept, fun _ _ ↦ by rw [Heap.entries, hkept, Option.getD_some]⟩
  · exact hlinked.spares_none.attributeDict?_iff (Option.isSome_of_eq_some hdict) holder
  · subst hcallable
    obtain ⟨address, record, rfl, hnew, hrecord, hapart, hcopy, hkept⟩ :=
      Request.exists_of_call_type hdict hpositional (Prod.ext hvalue rfl)
    refine ⟨address, record, rfl, hnew, hrecord, hapart, hcopy, hkept,
      fun between older hbetween ↦ ⟨?_, ?_⟩⟩
    · have hthere : (final.heap.dict? record.namespaceDict).isSome := Option.isSome_of_eq_some hcopy
      refine (hbetween.spares_none.attributeDict?_iff hthere address).mpr ?_
      rw [Heap.attributeDict?_eq_bind, Heap.userClass?_eq_some_iff.mp hrecord]
      rfl
    · intro later newer hlater kept _ contents hcontents huntouched
      have hspares : Heap.Spares (· = kept) older.heap newer.heap := by
        refine hlater.spares fun moment hmoment target htarget ↦ ?_
        rintro rfl
        exact huntouched moment hmoment htarget
      exact hspares.kept kept contents rfl hcontents
  · have hobeys := Call.obeys_dispatch (Policy.reserved_coversCall hother arguments)
    obtain hplain | ⟨_, _, _, hinside, -⟩ := hobeys.belongs hmoment
    · exact hplain
    · exact absurd hinside List.not_mem_nil

/-! ### Keywords of a class and an argument that is edited -/

namespace CallersDicts

open Script

/-- The dict of keywords names `type` as the metaclass. -/
def keywords : Entries Value := .ofList [("metaclass", .builtin (.type .type))]

/-- A dict with one entry. -/
def single : Entries Value := .ofList [("a", .ofInt 1)]

/-- A class body that binds a variable. -/
def body : CodeExpression :=
  .mk "" [] true (.script [.assign .locals "x" (.literal (.int 1)), .result (.literal .null)])

/-- A function that sets an entry of its argument. -/
def editor : CodeExpression :=
  .mk "" ["d"] false (.script [.evaluate
    (.probe (.dict .set) [.variable "d", .literal (.text "b"), .literal (.int 2)])])

/-- The two dicts, and the two functions with a dict of globals each. -/
def statements : List Statement :=
  [.assign .locals "keywords" (.dict [("metaclass", .literal (.nativeType .type))]),
   .assign .locals "single" (.dict [("a", .literal (.int 1))]),
   .assign .locals "body" (.function "A" body [] [] (some (.dict []))),
   .assign .locals "editor" (.function "editor" editor [] [] (some (.dict [])))]

/-- The session after the statements. -/
def session : Session := (Session.start .scripted).after 2 statements

/-- A class is built with the dict of keywords. -/
def build : Request Value :=
  .call (.builtin (.function .buildClass)) ⟨[.function 5, .text "A"], some 1⟩

/-- A class is created from the dict with one entry. -/
def create : Request Value :=
  .call (.builtin (.type .type)) (.ofList [.text "B", .tuple [], .dict 2])

/-- The function that edits is called with the dict with one entry. -/
def edit : Request Value := .call (.function 8) (.ofList [.dict 2])

end CallersDicts

/-- A class is built, and its keywords still name the metaclass. A class is created, and its
namespace is a dict of its own. -/
theorem callers_dict_spared_keywords :
    (CallersDicts.build.answer CallersDicts.session.settings 3
        CallersDicts.session.world).1.isValue = true ∧
      (CallersDicts.build.answer CallersDicts.session.settings 3
        CallersDicts.session.world).2.heap.dict? 1 = some CallersDicts.keywords ∧
      ∃ (address : Address) (record : ClassRecord),
        (CallersDicts.create.answer CallersDicts.session.settings 3
          CallersDicts.session.world).1 = .value (.userClass address) ∧
        (CallersDicts.create.answer CallersDicts.session.settings 3
          CallersDicts.session.world).2.heap.userClass? address = some record ∧
        record.namespaceDict ≠ 2 := by
  have hkeywords : CallersDicts.session.world.heap.dict? 1 = some CallersDicts.keywords := by
    with_unfolding_all rfl
  have hsingle : CallersDicts.session.world.heap.dict? 2 = some CallersDicts.single := by
    with_unfolding_all rfl
  have hignored : ∀ moment ∈ CallersDicts.build.opening
      (Request.history CallersDicts.session.settings 3) CallersDicts.session.world,
      moment.uses CallersDicts.session.settings 1 = false ∧ moment.stored? ≠ some 1 ∧
        moment.edited? ≠ some 1 := by with_unfolding_all decide
  have hvalue : (CallersDicts.create.answer CallersDicts.session.settings 3
      CallersDicts.session.world).1 = .value (.userClass 10) := by with_unfolding_all rfl
  obtain ⟨hspared, -⟩ := callers_dict_spared CallersDicts.session.settings
    CallersDicts.session.world 3 (.builtin (.function .buildClass))
    ⟨[.function 5, .text "A"], some 1⟩ hkeywords
  obtain ⟨-, -, hcreated, -⟩ := callers_dict_spared CallersDicts.session.settings
    CallersDicts.session.world 3 (.builtin (.type .type))
    (.ofList [.text "B", .tuple [], .dict 2]) hsingle
  obtain ⟨address, record, hcls, -, hrecord, hapart, -⟩ := hcreated _ _ _ rfl rfl hvalue
  exact ⟨by with_unfolding_all decide, (hspared hignored).1, address, record, hcls ▸ hvalue,
    hrecord, hapart⟩

/-- A script that is given a dict can edit it, in a frame that does not have it and without storing
an attribute. -/
theorem callers_dict_edited :
    ¬∀ (settings : Settings) (patience : Nat) (callable : Value) (arguments : Arguments)
      (world : World) (dict : Address) (entries : Entries Value),
      world.heap.dict? dict = some entries →
      (∀ moment ∈ (Request.call callable arguments).opening (Request.history settings patience)
          world, moment.uses settings dict = false ∧ moment.stored? ≠ some dict) →
      ((Request.call callable arguments).answer settings patience world).2.heap.dict? dict =
        some entries := by
  intro hclaim
  have hkept := hclaim CallersDicts.session.settings 3 (.function 8) (.ofList [.dict 2])
    CallersDicts.session.world 2 CallersDicts.single (by with_unfolding_all rfl)
    (by with_unfolding_all decide)
  have hkeys : ((CallersDicts.edit.answer CallersDicts.session.settings 3
      CallersDicts.session.world).2.heap.dict? 2).map Entries.keys = some ["a", "b"] := by
    with_unfolding_all decide
  rw [CallersDicts.edit, hkept] at hkeys
  exact absurd hkeys (by decide)

end Metaobject
