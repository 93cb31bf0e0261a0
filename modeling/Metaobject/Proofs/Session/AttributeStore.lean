import Metaobject.Proofs.ClassGraph.Update
import Metaobject.Proofs.Run.Ownership
import Metaobject.Proofs.Run.Requests
import Metaobject.Proofs.Session.Hierarchy

/-!
# Storing attributes

Storing an attribute is a local change in every reachable world (`Session.Reaches.setattr_local`).
Each attribute dict belongs to one object, so what is stored is read back from this object, and on
other objects nothing changes but what they find on a class that the attribute was stored on.
-/

set_option autoImplicit false
set_option relaxedAutoImplicit false

namespace Metaobject

/-! ### Where attributes are stored -/

/-- The object in whose attribute dict the attributes of a value are stored, if there is one. -/
def Value.holder? : Value → Option Address
  | .object address | .userClass address | .moduleObject address => some address
  | _ => none

/-- The names of a value that are never read from its attribute dict. -/
def Attribute.intercepted : Value → List String
  | .userClass _ => ["__class__", "__dict__", "__name__", "__bases__", "__mro__"]
  | _ => ["__class__", "__dict__"]

/-- The world after an attribute is stored. -/
def World.stored (world : World) (holder : Address) (name : String) (content : Value) : World :=
  (world.storeAttribute holder name content).2

theorem World.storeAttribute_eq (world : World) (holder : Address) (name : String)
    (content : Value) :
    world.storeAttribute holder name content = (.value (), world.stored holder name content) := by
  unfold stored storeAttribute
  split <;> rfl

theorem World.heap_stored {world : World} {holder dict : Address}
    (howned : world.heap.attributeDict? holder = some dict) (name : String) (content : Value) :
    (world.stored holder name content).heap =
      world.heap.updateDict dict (·.insert name content) := by
  rw [stored, storeAttribute, howned]
  rfl

/-- A value that has a place for attributes has an attribute dict. -/
theorem Heap.Holds.exists_attributeDict? {heap : Heap} {target : Value} (hheld : heap.Holds target)
    {holder : Address} (hholder : target.holder? = some holder) :
    ∃ dict, heap.attributeDict? holder = some dict := by
  cases target with
  | object address =>
    obtain rfl : address = holder := Option.some.inj hholder
    obtain ⟨⟨cls, dict⟩, hinstance⟩ := Option.isSome_iff_exists.mp (Heap.holds_object.mp hheld)
    exact ⟨dict, Heap.attributeDict?_of_instance? hinstance⟩
  | userClass address =>
    obtain rfl : address = holder := Option.some.inj hholder
    obtain ⟨record, hrecord⟩ := Option.isSome_iff_exists.mp (Heap.holds_userClass.mp hheld)
    exact ⟨record.namespaceDict, Heap.attributeDict?_of_userClass? hrecord⟩
  | moduleObject address =>
    obtain rfl : address = holder := Option.some.inj hholder
    obtain ⟨⟨name, dict⟩, hmodule⟩ := Option.isSome_iff_exists.mp (Heap.holds_moduleObject.mp hheld)
    exact ⟨dict, Heap.attributeDict?_of_module? hmodule⟩
  | _ => cases hholder

/-- The holder of the attributes of a value that is no class is no class. -/
theorem Heap.Holds.userClass?_holder {heap : Heap} {target : Value} (hheld : heap.Holds target)
    {holder : Address} (hholder : target.holder? = some holder)
    (hplain : ∀ address, target ≠ .userClass address) : heap.userClass? holder = none := by
  cases target with
  | object address =>
    obtain rfl : address = holder := Option.some.inj hholder
    obtain ⟨⟨cls, dict⟩, hinstance⟩ := Option.isSome_iff_exists.mp (Heap.holds_object.mp hheld)
    simp only [Heap.userClass?, Heap.instance?_eq_some_iff.mp hinstance]
  | userClass address => exact absurd rfl (hplain address)
  | moduleObject address =>
    obtain rfl : address = holder := Option.some.inj hholder
    obtain ⟨⟨name, dict⟩, hmodule⟩ := Option.isSome_iff_exists.mp (Heap.holds_moduleObject.mp hheld)
    simp only [Heap.userClass?, Heap.module?_eq_some_iff.mp hmodule]
  | _ => cases hholder

section

variable {settings : Settings}
  {respond : {Answer : Type} → Request Answer → World → Ending Answer × World}
  {world : World} {target content : Value} {holder : Address} {name : String}

/-! ### Storing and reading -/

theorem Attribute.gives_set (hholder : target.holder? = some holder) (name : String)
    (content : Value) :
    (Attribute.set target name content).Gives settings respond world [] ()
      (world.stored holder name content) := by
  cases target with
  | object | userClass | moduleObject =>
    obtain rfl := Option.some.inj hholder
    exact Program.gives_effect (world.storeAttribute_eq _ name content)
  | _ => cases hholder

theorem BuiltinFunction.gives_setattr (hholder : target.holder? = some holder) (name : String)
    (content : Value) :
    (BuiltinFunction.run .setattr (.ofList [target, .text name, content])).Gives settings respond
      world [] .null (world.stored holder name content) :=
  (Attribute.gives_set hholder name content).bind (Program.gives_done _ _)

/-- A value without a place for attributes refuses them. -/
theorem Attribute.stops_set (hplace : target.holder? = none) :
    ∃ exception : Exception, exception.cls = .attributeError ∧
      (Attribute.set target name content).Stops settings respond world [] (.raised exception)
        world := by
  cases target with
  | object | userClass | moduleObject => cases hplace
  | builtin builtin =>
    cases builtin with
    | function => exact ⟨_, rfl, (Program.leads_heap _ world).stops (Program.stops_raise _ world)⟩
    | type kind => exact ⟨.immutableType kind.name name, rfl, Program.stops_raise _ world⟩
    | exception cls => exact ⟨.immutableType cls.name name, rfl, Program.stops_raise _ world⟩
  | _ => exact ⟨_, rfl, (Program.leads_heap _ world).stops (Program.stops_raise _ world)⟩

/-- What stands in the attribute dict of a value is read as it is, under every name that is not
intercepted. -/
theorem Attribute.gives_get (hheld : world.heap.Holds target)
    (hholder : target.holder? = some holder) (hname : name ∉ intercepted target) {dict : Address}
    (howned : world.heap.attributeDict? holder = some dict)
    (hfound : (world.heap.entries dict).find? name = some content) :
    (Attribute.get target name).Gives settings respond world [] content world := by
  have hclass : name ≠ "__class__" := by
    rintro rfl
    cases target <;> simp [intercepted] at hname
  have hdict : name ≠ "__dict__" := by
    rintro rfl
    cases target <;> simp [intercepted] at hname
  refine (Program.leads_heap _ world).gives ?_
  rw [if_neg hclass]
  cases target with
  | object address =>
    obtain rfl : address = holder := Option.some.inj hholder
    obtain ⟨⟨cls, attributes⟩, hinstance⟩ :=
      Option.isSome_iff_exists.mp (Heap.holds_object.mp hheld)
    obtain rfl : attributes = dict :=
      Option.some.inj ((Heap.attributeDict?_of_instance? hinstance).symm.trans howned)
    simp only [ofKind, hinstance, ofInstance]
    refine (Program.leads_heap _ world).gives ?_
    simp only [if_neg hdict, hfound]
    exact Program.gives_done content world
  | userClass address =>
    obtain rfl : address = holder := Option.some.inj hholder
    obtain ⟨record, hrecord⟩ := Option.isSome_iff_exists.mp (Heap.holds_userClass.mp hheld)
    obtain rfl : record.namespaceDict = dict :=
      Option.some.inj ((Heap.attributeDict?_of_userClass? hrecord).symm.trans howned)
    have hintrinsic : intrinsic? world.heap address record name = none := by
      unfold intrinsic?
      split <;> simp [intercepted] at hname ⊢
    have hlookup : world.heap.lookupUser name address = some content :=
      Heap.lookup_of_ownAttribute? (by rw [Heap.ownAttribute?, hrecord]; exact hfound)
    simp only [ofKind, hrecord, ofUserClass]
    refine (Program.leads_heap _ world).gives ?_
    simp only [hintrinsic, hlookup]
    exact Program.gives_done content world
  | moduleObject address =>
    obtain rfl : address = holder := Option.some.inj hholder
    obtain ⟨⟨moduleName, namespaceDict⟩, hmodule⟩ :=
      Option.isSome_iff_exists.mp (Heap.holds_moduleObject.mp hheld)
    obtain rfl : namespaceDict = dict :=
      Option.some.inj ((Heap.attributeDict?_of_module? hmodule).symm.trans howned)
    simp only [ofKind, hmodule, ofModule, if_neg hdict, hfound]
    exact Program.gives_done content world
  | _ => cases hholder

theorem BuiltinFunction.gives_getattr
    (hget : (Attribute.get target name).Gives settings respond world [] content world) :
    (BuiltinFunction.run .getattr (.ofList [target, .text name])).Gives settings respond world []
      content world :=
  hget

/-! ### Locality -/

/-- What is stored is read back. -/
theorem World.gives_get_stored (hformed : world.heap.WellFormed)
    (hheld : world.heap.Holds target) (hholder : target.holder? = some holder)
    (hname : name ∉ Attribute.intercepted target) (content : Value) :
    (Attribute.get target name).Gives settings respond (world.stored holder name content) [] content
      (world.stored holder name content) := by
  obtain ⟨dict, howned⟩ := hheld.exists_attributeDict? hholder
  have hheap := World.heap_stored howned name content
  refine Attribute.gives_get (hheap ▸ hheld.grow (world.heap.growsTo_updateDict _ _)) hholder hname
    (by rw [hheap, Heap.attributeDict?_updateDict, howned]) ?_
  rw [hheap, Heap.entries_updateDict (hformed.attributeDict? howned), if_pos rfl,
    Entries.find?_insert, if_pos rfl]

/-- The attributes of all other objects stay as they are. -/
theorem World.attributes_stored_of_ne (hprecede : world.heap.DictsPrecede)
    (howns : ∃ dict, world.heap.attributeDict? holder = some dict) (name : String)
    (content : Value) {other : Address} (hother : other ≠ holder) {dict : Address}
    (howned : world.heap.attributeDict? other = some dict) :
    (world.stored holder name content).heap.attributeDict? other = some dict ∧
      (world.stored holder name content).heap.dict? dict = world.heap.dict? dict := by
  obtain ⟨changed, hchanged⟩ := howns
  have hapart : dict ≠ changed := fun hsame ↦
    hother (hprecede.unique (hsame ▸ howned) hchanged)
  rw [World.heap_stored hchanged, Heap.attributeDict?_updateDict]
  exact ⟨howned, Heap.dict?_updateDict_of_ne hapart⟩

end

/-! ### Reachable worlds -/

namespace Session

/-- Storing an attribute in a reachable world, whatever the settings are and however requests are
answered. Classes, instances and modules all have attribute dicts of their own. An attribute can be
stored on each of them, by itself and by `setattr`; it makes no request, changes one dict only and
leaves the attributes of all other objects as they are; and unless the name is intercepted, reading
it gives the very content that was stored, without a request, by itself and by `getattr`. Stored on
a class it is found on this class; what is found on any class changes at most under this name and on
classes that have the class in their linearizations, and the dicts of instances do not change.
Stored on an instance or a module it changes nothing that is found on any class. All other values,
the builtin classes among them, refuse attributes. -/
theorem Reaches.setattr_local {configuration : Configuration} {world : World}
    (hreaches : Reaches configuration world) (settings : Settings)
    (respond : {Answer : Type} → Request Answer → World → Ending Answer × World) :
    (∀ first second dict, world.heap.attributeDict? first = some dict →
      world.heap.attributeDict? second = some dict → first = second) ∧
    (∀ target holder name content, world.heap.Holds target → target.holder? = some holder →
      let after := world.stored holder name content
      (Attribute.set target name content).Gives settings respond world [] () after ∧
        (BuiltinFunction.run .setattr (.ofList [target, .text name, content])).Gives settings
          respond world [] .null after ∧
        (∃ dict, world.heap.attributeDict? holder = some dict ∧
          ∀ address, address ≠ dict → after.heap.get? address = world.heap.get? address) ∧
        (∀ other dict, other ≠ holder → world.heap.attributeDict? other = some dict →
          after.heap.attributeDict? other = some dict ∧
            after.heap.dict? dict = world.heap.dict? dict) ∧
        ((∀ address, target ≠ .userClass address) → ∀ other sought, world.heap.HasClass other →
          after.heap.lookup sought other = world.heap.lookup sought other) ∧
        (name ∉ Attribute.intercepted target →
          (Attribute.get target name).Gives settings respond after [] content after ∧
            (BuiltinFunction.run .getattr (.ofList [target, .text name])).Gives settings respond
              after [] content after)) ∧
    (∀ cls name content, (world.heap.userClass? cls).isSome →
      let after := world.stored cls name content
      after.heap.lookup name (.user cls) = some content ∧
        (∀ other sought, world.heap.HasClass other →
          ¬(sought = name ∧ .user cls ∈ world.heap.linearization other) →
          after.heap.lookup sought other = world.heap.lookup sought other) ∧
        ∀ address ofClass attributes, world.heap.instance? address = some (ofClass, attributes) →
          after.heap.instance? address = some (ofClass, attributes) ∧
            after.heap.dict? attributes = world.heap.dict? attributes) ∧
    ∀ target name content, target.holder? = none →
      ∃ exception : Exception, exception.cls = .attributeError ∧
        (Attribute.set target name content).Stops settings respond world [] (.raised exception)
          world := by
  have hformed := hreaches.wellFormed
  have hprecede := hreaches.dictsPrecede
  refine ⟨fun first second dict ↦ hprecede.unique, ?_, ?_,
    fun target name content ↦ Attribute.stops_set⟩
  · intro target holder name content hheld hholder after
    obtain ⟨dict, howned⟩ := hheld.exists_attributeDict? hholder
    refine ⟨Attribute.gives_set hholder name content,
      BuiltinFunction.gives_setattr hholder name content,
      ⟨dict, howned, fun address haddress ↦ ?_⟩,
      fun other owned hother ↦ World.attributes_stored_of_ne hprecede ⟨dict, howned⟩ name content
        hother, fun hplain other sought hcls ↦ ?_, fun hname ↦ ?_⟩
    · rw [World.heap_stored howned, Heap.get?_updateDict_of_ne haddress]
    · have hother := hheld.userClass?_holder hholder hplain
      rw [World.heap_stored howned]
      exact hprecede.lookup_insert_of_other hformed howned hcls hother name sought content
    · have hget : (Attribute.get target name).Gives settings respond after [] content after :=
        World.gives_get_stored hformed hheld hholder hname content
      exact ⟨hget, BuiltinFunction.gives_getattr hget⟩
  · intro cls name content hcls after
    obtain ⟨record, hrecord⟩ := Option.isSome_iff_exists.mp hcls
    have howned := Heap.attributeDict?_of_userClass? hrecord
    have hafter : after.heap = world.heap.updateDict _ (·.insert name content) :=
      World.heap_stored howned name content
    refine ⟨Heap.lookup_of_ownAttribute? ?_, fun other sought hother hnot ↦ ?_, ?_⟩
    · rw [hafter, hprecede.ownAttribute?_insert howned (hformed.attributeDict? howned) hcls,
        if_pos ⟨rfl, rfl⟩]
    · rw [hafter, hprecede.lookup_insert_of_not hformed howned hother content hnot]
    · intro address ofClass attributes hinstance
      have hother : address ≠ cls := by
        rintro rfl
        rw [Heap.instance?_eq_some_iff, Heap.userClass?_eq_some_iff.mp hrecord] at hinstance
        cases hinstance
      refine ⟨?_, (World.attributes_stored_of_ne hprecede ⟨_, howned⟩ name content hother
        (Heap.attributeDict?_of_instance? hinstance)).2⟩
      rw [hafter]
      exact (world.heap.growsTo_updateDict _ _).instance? hinstance

/-! ### A class, a class below it and an instance -/

namespace Stored

open Script

/-- Class `A`, `B` below it and an instance of `B`. -/
def statements : List Statement :=
  [.assign .locals "A" (creation type "A" [] []),
   .assign .locals "B" (creation type "B" [.variable "A"] []),
   .evaluate (.call (.variable "B") [] .absent)]

/-- The session after the statements. -/
def session : Session := (start .scripted).after 2 statements

end Stored

/-- An attribute is stored on the lower class and is not found on the upper one, and another one is
stored on the instance and is read back. -/
theorem setattr_local_stored :
    (Stored.session.world.stored 6 "x" .null).heap.lookup "x" (.user 6) = some .null ∧
      (Stored.session.world.stored 6 "x" .null).heap.lookup "x" (.user 3) =
        Stored.session.world.heap.lookup "x" (.user 3) ∧
      (Attribute.get (.object 8) "y").Gives Stored.session.settings
        (Request.answer Stored.session.settings 2) (Stored.session.world.stored 8 "y" .ellipsis) []
        .ellipsis (Stored.session.world.stored 8 "y" .ellipsis) := by
  have hreaches : Reaches .scripted Stored.session.world :=
    .rests (Rests.start.after 2 Stored.statements)
  have hupper : (Stored.session.world.heap.userClass? 3).isSome := by with_unfolding_all decide
  have hlower : (Stored.session.world.heap.userClass? 6).isSome := by with_unfolding_all decide
  have hinstance : (Stored.session.world.heap.instance? 8).isSome := by with_unfolding_all decide
  have hapart : ¬("x" = "x" ∧
      .user 6 ∈ Stored.session.world.heap.linearization (.user 3)) := by with_unfolding_all decide
  obtain ⟨-, hstore, hclass, -⟩ := hreaches.setattr_local Stored.session.settings
    (Request.answer Stored.session.settings 2)
  obtain ⟨hfound, hothers, -⟩ := hclass 6 "x" .null hlower
  obtain ⟨-, -, -, -, -, hread⟩ :=
    hstore (.object 8) 8 "y" .ellipsis (Heap.holds_object.mpr hinstance) rfl
  exact ⟨hfound, hothers (.user 3) "x" hupper hapart, (hread (by decide)).1⟩

end Session

end Metaobject
