import Metaobject.Proofs.Arguments.Supplied
import Metaobject.Proofs.Heap.Growth
import Metaobject.Proofs.Obedience.Builtin
import Metaobject.Proofs.Run.Collaborators

/-!
# What collaborators are consulted with

Which arguments of `__import__` and `compile` are valid, and what they ask for, is read off the
arguments that are supplied for each parameter (`Import.States`, `Compile.States`). Both builtins
check their arguments by a native program (`Import.prepare`, `Compile.prepare`), which gives the
request of valid arguments and refuses all others with an exception (`Import.concludes_prepare`,
`Compile.concludes_prepare`). So each of them consults its collaborator exactly if the arguments are
valid, once and with what they ask for, and ends as the collaborator does
(`Import.consults_dispatch`, `Compile.consults_dispatch`).
-/

set_option autoImplicit false
set_option relaxedAutoImplicit false

namespace Metaobject

/-! ### Consulting -/

/-- Whether a collaborator is consulted exactly if some terms are stated: then once, last, with what
serves the terms in the world reached by then, and the ending is that of the collaborator. Otherwise
the ending is a refusal. -/
structure Consults {Terms Wanted : Type} (settings : Settings) (consult : Wanted → Effect Value)
    (world : World) (stated : Terms → Prop) (serves : Terms → World → Wanted → Prop)
    (deeds : List Deed) (ending : Ending Value) : Prop where
  consulted : ∀ terms, stated terms → ∃ wanted before middle, serves terms middle wanted ∧
    deeds = before ++ [.performs (consult wanted) ending] ∧ (∀ deed ∈ before, deed.isNative) ∧
      world.Passes settings before middle
  spared : (∀ terms, ¬stated terms) → (∀ deed ∈ deeds, deed.isNative) ∧
    ∃ exception, ending = .raised exception ∧ exception.IsRefusal

/-- A native program that gives what serves the terms, or refuses, consults the collaborator exactly
if terms are stated. -/
theorem Program.Does.consults {Terms Wanted : Type} {settings : Settings}
    {respond : {Answer : Type} → Request Answer → World → Ending Answer × World}
    {prepare : Program Wanted} {consult : Wanted → Effect Value} {world final : World}
    {stated : Terms → Prop} {serves : Terms → World → Wanted → Prop} {deeds : List Deed}
    {ending : Ending Value} (hnative : prepare.Native)
    (hunique : ∀ first second, stated first → stated second → first = second)
    (hprepare : prepare.Concludes settings respond world
      (fun wanted middle ↦ ∃ terms, stated terms ∧ serves terms middle wanted)
      (fun exception ↦ (∀ terms, ¬stated terms) ∧ exception.IsRefusal))
    (hdoes : (prepare >>= fun wanted ↦ Program.effect (consult wanted)).Does deeds ending)
    (hpasses : world.Passes settings deeds final) :
    Consults settings consult world stated serves deeds ending := by
  rcases @of_consultation settings respond _ _ _ _ _ _ _ hnative _ hdoes hpasses with
    ⟨wanted, before, middle, hrun, rfl, hbefore, hmiddle⟩ | ⟨cut, hrun, rfl, hdeeds⟩
  · rcases hprepare with ⟨result, reached, hsame, terms, hterms, hserves⟩ |
      ⟨exception, reached, hsame, -⟩
    · obtain ⟨hresult, rfl⟩ := Prod.mk.inj (hrun.symm.trans hsame)
      obtain rfl := Ending.value.inj hresult
      exact
        { consulted := fun others hothers ↦ ⟨wanted, before, middle,
            hunique terms others hterms hothers ▸ hserves, rfl, hbefore, hmiddle⟩
          spared := fun hnone ↦ absurd hterms (hnone terms) }
    · cases hrun.symm.trans hsame
  · rcases hprepare with ⟨result, reached, hsame, -⟩ |
      ⟨exception, reached, hsame, hnone, hrefusal⟩
    · exact absurd (congrArg Prod.fst (hrun.symm.trans hsame)) (cut.ending_ne_value result)
    · have hending : (cut.ending : Ending Wanted) = (Cut.raised exception).ending :=
        congrArg Prod.fst (hrun.symm.trans hsame)
      obtain rfl := Cut.ending_injective hending
      exact
        { consulted := fun terms hterms ↦ absurd hterms (hnone terms)
          spared := fun _ ↦ ⟨hdeeds, exception, rfl, hrefusal⟩ }

/-! ### Compiling -/

theorem CompileMode.ofName?_eq_some_iff (text : String) (mode : CompileMode) :
    ofName? text = some mode ↔ text = mode.name := by
  constructor
  · intro hmode
    have hname := List.find?_some hmode
    exact (beq_iff_eq.mp hname).symm
  · rintro rfl
    cases mode <;> rfl

namespace Compile

/-- The names of the parameters. -/
def parameters : List String :=
  ["source", "filename", "mode", "flags", "dont_inherit", "optimize"]

/-- Whether arguments state a valid request. The optimization level is none of what the compiler is
asked for. -/
structure States (positional : List Value) (given : Entries Value) (request : CompileRequest) :
    Prop where
  placeable : Arguments.Placeable parameters 3 positional given
  source : Arguments.suppliedFor parameters positional given "source" =
    some (.text request.source)
  filename : Arguments.suppliedFor parameters positional given "filename" =
    some (.text request.filename)
  mode : Arguments.suppliedFor parameters positional given "mode" = some (.text request.mode.name)
  flags : Arguments.SuppliesWord 0 (Arguments.suppliedFor parameters positional given "flags")
    request.flags
  context : ∃ word, Arguments.SuppliesWord 0
      (Arguments.suppliedFor parameters positional given "dont_inherit") word ∧
    request.ignoresContext = decide (word ≠ 0)
  optimization : ∃ level, Arguments.SuppliesWord (-1)
      (Arguments.suppliedFor parameters positional given "optimize") level ∧
    -1 ≤ level ∧ level ≤ 2

/-- Arguments state at most one request. -/
theorem States.unique {positional : List Value} {given : Entries Value}
    {first second : CompileRequest} (hfirst : States positional given first)
    (hsecond : States positional given second) : first = second := by
  obtain ⟨source, filename, mode, flags, ignoresContext⟩ := first
  obtain ⟨word, hword, hcontext⟩ := hfirst.context
  obtain ⟨other, hother, hsame⟩ := hsecond.context
  have hsource := Option.some.inj (hfirst.source.symm.trans hsecond.source)
  have hfilename := Option.some.inj (hfirst.filename.symm.trans hsecond.filename)
  have hmode := Option.some.inj (hfirst.mode.symm.trans hsecond.mode)
  obtain rfl := Value.text.inj hsource
  obtain rfl := Value.text.inj hfilename
  obtain rfl : mode = second.mode := Option.some.inj
    (((CompileMode.ofName?_eq_some_iff _ mode).mpr (Value.text.inj hmode).symm).symm.trans
      ((CompileMode.ofName?_eq_some_iff _ second.mode).mpr rfl))
  obtain rfl := hfirst.flags.unique hsecond.flags
  obtain rfl : ignoresContext = second.ignoresContext := by
    rw [hsame, ← hword.unique hother]
    exact hcontext
  rfl

/-- The check of the arguments. -/
def prepare (arguments : Arguments) : Program CompileRequest := do
  let heap ← Program.heap
  let bound ← .ofFailure (arguments.bind heap "Oss|iii:compile" (some parameters)
    [.null, .null, .null, .ofInt 0, .ofInt 0, .ofInt (-1)])
  .ofFailure (request bound)

theorem run_eq (arguments : Arguments) :
    run arguments =
      prepare arguments >>= fun request ↦ Program.effect (.compileSource request) := by
  simp only [run, prepare, bind_assoc]
  rfl

theorem native_prepare (arguments : Arguments) : (prepare arguments).Native :=
  .bind ⟨rfl, fun _ ↦ trivial⟩ fun _ ↦ .bind (.ofFailure _) fun _ ↦ .ofFailure _

theorem integerArgument_of_word? {value : Value} {integer : Int}
    (hword : value.word? = some integer) : integerArgument value = .ok integer := by
  rw [integerArgument, hword]

/-- Bound arguments are a request if the optimization level, the mode and the source are such, and
otherwise they are refused. -/
theorem concludes_request {source flagsValue contextValue levelValue : Value}
    {filename modeName : String} {flags word level : Int} (hflags : flagsValue.word? = some flags)
    (hword : contextValue.word? = some word) (hlevel : levelValue.word? = some level) :
    Concludes
      (fun request ↦ source = .text request.source ∧ filename = request.filename ∧
        modeName = request.mode.name ∧ flags = request.flags ∧
          request.ignoresContext = decide (word ≠ 0) ∧ -1 ≤ level ∧ level ≤ 2)
      (fun failure ↦ ∃ exception, failure = .raised exception ∧ exception.IsRefusal ∧
        ¬((-1 ≤ level ∧ level ≤ 2) ∧ (∃ mode : CompileMode, modeName = mode.name) ∧
          ∃ content, source = .text content))
      (request [source, .text filename, .text modeName, flagsValue, contextValue, levelValue]) := by
  simp only [request, integerArgument_of_word? hflags, integerArgument_of_word? hword,
    integerArgument_of_word? hlevel, Value.text?, Option.bind_some, bind, Except.bind]
  by_cases hrange : -1 ≤ level ∧ level ≤ 2
  · rw [if_neg (not_not.mpr hrange)]
    rcases hmode : CompileMode.ofName? modeName with _ | mode
    · refine ⟨_, rfl, Or.inr (Or.inl rfl), ?_⟩
      rintro ⟨-, ⟨mode, hname⟩, -⟩
      cases hmode.symm.trans ((CompileMode.ofName?_eq_some_iff modeName mode).mpr hname)
    · have hname := (CompileMode.ofName?_eq_some_iff modeName mode).mp hmode
      cases source with
      | text content => exact ⟨rfl, rfl, hname, rfl, rfl, hrange⟩
      | _ =>
        refine ⟨_, rfl, Or.inl rfl, ?_⟩
        rintro ⟨-, -, content, hcontent⟩
        cases hcontent
  · rw [if_pos hrange]
    exact ⟨_, rfl, Or.inr (Or.inl rfl), fun hvalid ↦ hrange hvalid.1⟩

/-- The check gives the request that the arguments state, or refuses arguments that state none. -/
theorem concludes_prepare (settings : Settings)
    (respond : {Answer : Type} → Request Answer → World → Ending Answer × World) (world : World)
    (positional : List Value) (keywords : Option Address) :
    let given := (keywords.map world.heap.entries).getD .empty
    (prepare (.of world.heap positional keywords)).Concludes settings respond world
      (fun request middle ↦
        ∃ stated, States positional given stated ∧ request = stated ∧ middle = world)
      (fun exception ↦ (∀ request, ¬States positional given request) ∧ exception.IsRefusal) := by
  intro given
  let supplied := Arguments.suppliedFor parameters positional given
  refine .heap_bind (.bind (Arguments.concludes_bind settings respond world positional keywords
    read_format (by decide) rfl rfl (by decide)) ?_ ?_)
  · rintro _ _ ⟨⟨⟨hplaceable, htakes⟩, rfl⟩, hsame⟩
    have hgiven : ∀ parameter ∈ parameters.take 3, (supplied parameter).isSome :=
      hplaceable.filled
    have htaken : ∀ kind parameter, (kind, parameter) ∈
        [ParameterKind.any, .text, .text, .integer, .integer, .integer].zip parameters →
          ∀ value ∈ supplied parameter, (kind.taken? value).isSome :=
      fun kind parameter hpair ↦ htakes (kind, parameter) hpair
    obtain ⟨source, hsource⟩ := Option.isSome_iff_exists.mp (hgiven "source" (by decide))
    obtain ⟨filename, hfilename⟩ := Arguments.exists_of_taken_text
      (hgiven "filename" (by decide)) (htaken .text "filename" (by decide))
    obtain ⟨modeName, hmode⟩ := Arguments.exists_of_taken_text (hgiven "mode" (by decide))
      (htaken .text "mode" (by decide))
    obtain ⟨flags, hflags, hflagsWord⟩ := Arguments.SuppliesWord.exists_of_taken
      (show Value.fitsWord 0 by decide) (htaken .integer "flags" (by decide))
    obtain ⟨word, hword, hcontextWord⟩ := Arguments.SuppliesWord.exists_of_taken
      (show Value.fitsWord 0 by decide) (htaken .integer "dont_inherit" (by decide))
    obtain ⟨level, hlevel, hlevelWord⟩ := Arguments.SuppliesWord.exists_of_taken
      (show Value.fitsWord (-1) by decide) (htaken .integer "optimize" (by decide))
    have hbound : Arguments.taken
        [.any, .text, .text, .integer, .integer, .integer] parameters
        [.null, .null, .null, .ofInt 0, .ofInt 0, .ofInt (-1)] supplied =
          [source, .text filename, .text modeName,
            ((supplied "flags").bind ParameterKind.integer.taken?).getD (.ofInt 0),
            ((supplied "dont_inherit").bind ParameterKind.integer.taken?).getD (.ofInt 0),
            ((supplied "optimize").bind ParameterKind.integer.taken?).getD (.ofInt (-1))] := by
      simp only [Arguments.taken, parameters, List.zip_cons_cons, List.zip_nil_left,
        List.map_cons, List.map_nil, hsource, hfilename, hmode]
      rfl
    rw [hsame, hbound]
    refine .mono (.ofFailure (concludes_request hflagsWord hcontextWord hlevelWord)) ?_ ?_
    · rintro request _ ⟨⟨rfl, rfl, rfl, rfl, hcontext, hrange⟩, rfl⟩
      refine ⟨request, ?_, rfl, rfl⟩
      exact
        { placeable := hplaceable
          source := hsource
          filename := hfilename
          mode := hmode
          flags := hflags
          context := ⟨word, hword, hcontext⟩
          optimization := ⟨level, hlevel, hrange⟩ }
    · rintro exception ⟨hrefusal, hinvalid⟩
      refine ⟨fun request hrequest ↦ hinvalid ⟨?_, ⟨request.mode, ?_⟩, request.source, ?_⟩,
        hrefusal⟩
      · obtain ⟨other, hother, hrange⟩ := hrequest.optimization
        rwa [hlevel.unique hother]
      · exact Value.text.inj (Option.some.inj (hmode.symm.trans hrequest.mode))
      · exact Option.some.inj (hsource.symm.trans hrequest.source)
  · rintro exception ⟨hinvalid, hrefusal⟩
    refine ⟨fun request hrequest ↦ hinvalid ⟨hrequest.placeable, ?_⟩, hrefusal⟩
    obtain ⟨_, hword, -⟩ := hrequest.context
    obtain ⟨_, hlevel, -⟩ := hrequest.optimization
    exact Arguments.takes_cons.mpr ⟨fun _ _ ↦ rfl,
      Arguments.takes_cons.mpr ⟨Arguments.isSome_taken_text hrequest.filename,
      Arguments.takes_cons.mpr ⟨Arguments.isSome_taken_text hrequest.mode,
      Arguments.takes_cons.mpr ⟨hrequest.flags.isSome_taken?,
      Arguments.takes_cons.mpr ⟨hword.isSome_taken?,
      Arguments.takes_cons.mpr ⟨hlevel.isSome_taken?, Arguments.takes_nil⟩⟩⟩⟩⟩⟩

/-- A call of `compile` consults the compiler exactly if the arguments state a request, and with
that request. -/
theorem consults_dispatch {settings : Settings} {world final : World} {positional : List Value}
    {keywords : Option Address} {deeds : List Deed} {ending : Ending Value}
    (hdoes : (Call.dispatch (.builtin (.function .compile))
      (.of world.heap positional keywords)).Does deeds ending)
    (hpasses : world.Passes settings deeds final) :
    Consults settings .compileSource world
      (States positional ((keywords.map world.heap.entries).getD .empty))
      (fun stated middle request ↦ request = stated ∧ middle = world) deeds ending := by
  let arguments := Arguments.of world.heap positional keywords
  have hdispatch : Call.dispatch (.builtin (.function .compile)) arguments =
      (Program.heap >>= fun _ ↦ prepare arguments) >>= fun request ↦
        Program.effect (.compileSource request) := by
    rw [bind_assoc, ← run_eq]
    rfl
  have hnative : (Program.heap >>= fun _ ↦ prepare arguments).Native :=
    .bind ⟨rfl, fun _ ↦ trivial⟩ fun _ ↦ native_prepare arguments
  rw [hdispatch] at hdoes
  have hprepare := concludes_prepare settings (fun _ world ↦ (.exhausted, world)) world positional
    keywords
  exact hdoes.consults hnative (fun _ _ hfirst hsecond ↦ hfirst.unique hsecond)
    (.heap_bind hprepare) hpasses

end Compile

/-! ### Importing -/

namespace Import

/-- The names of the parameters. -/
def parameters : List String := ["name", "globals", "locals", "fromlist", "level"]

/-- What an import asks for. A scope that is not given is to be a new dict. -/
structure Terms where
  name : String
  globals : Option Address
  locals : Option Address
  names : List String
  level : Nat

/-- The scope that is supplied: a dict as it is, or none. -/
inductive SuppliesScope : Option Value → Option Address → Prop
  | absent : SuppliesScope none none
  | null : SuppliesScope (some .null) none
  | dict (address : Address) : SuppliesScope (some (.dict address)) (some address)

/-- The names that are supplied: those of a tuple or of a list, or none. -/
inductive SuppliesNames (heap : Heap) : Option Value → List String → Prop
  | absent : SuppliesNames heap none []
  | null : SuppliesNames heap (some .null) []
  | tuple (names : List String) : SuppliesNames heap (some (.tuple (names.map .text))) names
  | list {address : Address} {names : List String} (hitems : heap.items address = names.map .text) :
    SuppliesNames heap (some (.list address)) names

/-- Whether arguments state valid terms. -/
structure States (heap : Heap) (positional : List Value) (given : Entries Value) (terms : Terms) :
    Prop where
  placeable : Arguments.Placeable parameters 1 positional given
  name : Arguments.suppliedFor parameters positional given "name" = some (.text terms.name)
  globals : SuppliesScope (Arguments.suppliedFor parameters positional given "globals")
    terms.globals
  locals : SuppliesScope (Arguments.suppliedFor parameters positional given "locals") terms.locals
  names : SuppliesNames heap (Arguments.suppliedFor parameters positional given "fromlist")
    terms.names
  level : Arguments.SuppliesWord 0 (Arguments.suppliedFor parameters positional given "level")
    terms.level
  bounded : terms.level ≤ 0xffffffff
  named : terms.name ≠ "" ∨ 0 < terms.level

/-- The dict of a scope in the world that has it: the one given, or else a new one without
entries. -/
inductive Opens (world : World) : Option Address → Address → World → Prop
  | given (address : Address) : Opens world (some address) address world
  | new : Opens world none world.heap.size
      { world with heap := world.heap.allocate (.dict .empty) }

/-- Whether a request serves terms: it has their name, names and level, and the dicts of their
scopes, which are made in turn. -/
structure Serves (world : World) (terms : Terms) (middle : World) (request : ImportRequest) :
    Prop where
  name : request.name = terms.name
  names : request.names = terms.names
  level : request.level = terms.level
  scopes : ∃ reached, Opens world terms.globals request.globals reached ∧
    Opens reached terms.locals request.locals middle

theorem SuppliesScope.unique {supplied : Option Value} {first second : Option Address}
    (hfirst : SuppliesScope supplied first) (hsecond : SuppliesScope supplied second) :
    first = second := by
  cases hfirst <;> cases hsecond <;> rfl

theorem map_text_injective : Function.Injective (List.map Value.text) :=
  List.map_injective_iff.mpr fun _ _ ↦ Value.text.inj

theorem SuppliesNames.unique {heap : Heap} {supplied : Option Value} {first second : List String}
    (hfirst : SuppliesNames heap supplied first) (hsecond : SuppliesNames heap supplied second) :
    first = second := by
  generalize hother : supplied = other at hsecond
  cases hfirst with
  | absent | null => subst hother; cases hsecond; rfl
  | tuple names =>
    cases hsecond with
    | tuple others => exact map_text_injective (Value.tuple.inj (Option.some.inj hother))
    | _ => cases hother
  | list hitems =>
    cases hsecond with
    | list hothers =>
      obtain rfl := Value.list.inj (Option.some.inj hother)
      exact map_text_injective (hitems.symm.trans hothers)
    | _ => cases hother

/-- Only the items of lists matter for the names. -/
theorem SuppliesNames.of_items {older newer : Heap}
    (hitems : ∀ address, newer.items address = older.items address) {supplied : Option Value}
    {names : List String} (hnames : SuppliesNames older supplied names) :
    SuppliesNames newer supplied names := by
  cases hnames with
  | absent => exact .absent
  | null => exact .null
  | tuple => exact .tuple names
  | list hsame => exact .list ((hitems _).trans hsame)

/-- Arguments state at most one choice of terms. -/
theorem States.unique {heap : Heap} {positional : List Value} {given : Entries Value}
    {first second : Terms} (hfirst : States heap positional given first)
    (hsecond : States heap positional given second) : first = second := by
  obtain ⟨name, globals, locals, names, level⟩ := first
  obtain rfl := Value.text.inj (Option.some.inj (hfirst.name.symm.trans hsecond.name))
  obtain rfl := hfirst.globals.unique hsecond.globals
  obtain rfl := hfirst.locals.unique hsecond.locals
  obtain rfl := hfirst.names.unique hsecond.names
  obtain rfl := Int.ofNat_inj.mp (hfirst.level.unique hsecond.level)
  rfl

/-- The check of the arguments, which also makes the dicts of missing scopes. -/
def prepare (arguments : Arguments) : Program ImportRequest := do
  let heap ← Program.heap
  match ← .ofFailure (arguments.bind heap "U|OOOi:__import__" (some parameters)
    [.null, .null, .null, .tuple [], .ofInt 0]) with
  | [name, globals, locals, fromList, level] =>
    let (name, level) ← .ofFailure (target name level)
    let globals ← scope "globals" globals
    let locals ← scope "locals" locals
    let names ← names fromList
    return ⟨name, globals, locals, names, level⟩
  | _ => .ofFailure (.error Arguments.miscounted)

theorem run_eq (arguments : Arguments) :
    run arguments = prepare arguments >>= fun request ↦ Program.effect (.importModule request) := by
  rw [run, prepare, bind_assoc]
  refine congrArg _ (funext fun heap ↦ ?_)
  rw [bind_assoc]
  refine congrArg _ (funext fun bound ↦ ?_)
  rcases bound with _ | ⟨name, _ | ⟨globals, _ | ⟨locals, _ | ⟨fromList, _ | ⟨level, _ | _⟩⟩⟩⟩⟩
  case cons.cons.cons.cons.cons.nil => simp only [bind_assoc, pure_bind]
  all_goals rfl

theorem native_scope (which : String) (value : Value) : (scope which value).Native := by
  unfold scope
  split
  · exact ⟨rfl, fun _ ↦ trivial⟩
  · trivial
  · exact ⟨rfl, fun _ ↦ trivial⟩

theorem native_names (value : Value) : (names value).Native := by
  refine .bind ⟨rfl, fun _ ↦ trivial⟩ fun heap ↦ ?_
  split
  · trivial
  · exact .ofExcept _
  · exact .ofExcept _
  · trivial

theorem native_prepare (arguments : Arguments) : (prepare arguments).Native := by
  refine .bind ⟨rfl, fun _ ↦ trivial⟩ fun _ ↦ .bind (.ofFailure _) fun bound ↦ ?_
  split
  · exact .bind (.ofFailure _) fun _ ↦ .bind (native_scope _ _) fun _ ↦
      .bind (native_scope _ _) fun _ ↦ .bind (native_names _) fun _ ↦ trivial
  · exact .ofFailure _

theorem items_allocate_dict (heap : Heap) (entries : Entries Value) (address : Address) :
    (heap.allocate (.dict entries)).items address = heap.items address := by
  rw [Heap.items, Heap.items, Heap.list?, Heap.list?, Heap.get?_allocate]
  by_cases hnew : address = heap.size
  · rw [if_pos hnew, hnew, (heap.get?_eq_none_iff heap.size).mpr (Nat.le_refl _)]
  · rw [if_neg hnew]

/-- The names of a scope's world are those of the world before it. -/
theorem Opens.items_eq {world reached : World} {given : Option Address} {address : Address}
    (hopens : Opens world given address reached) (list : Address) :
    reached.heap.items list = world.heap.items list := by
  cases hopens with
  | given => rfl
  | new => exact items_allocate_dict world.heap .empty list

section

variable (settings : Settings)
  (respond : {Answer : Type} → Request Answer → World → Ending Answer × World) (world : World)

theorem concludes_scope (which : String) (supplied : Option Value) :
    (scope which (supplied.getD .null)).Concludes settings respond world
      (fun address reached ↦
        ∃ given, SuppliesScope supplied given ∧ Opens world given address reached)
      (fun exception ↦ (∀ given, ¬SuppliesScope supplied given) ∧ exception.IsRefusal) := by
  have hnew : (scope which .null).run settings respond world =
      (.value world.heap.size, { world with heap := world.heap.allocate (.dict .empty) }) := rfl
  cases supplied with
  | none => exact Or.inl ⟨_, _, hnew, none, .absent, .new⟩
  | some value =>
    cases value with
    | null => exact Or.inl ⟨_, _, hnew, none, .null, .new⟩
    | dict address => exact .pure ⟨some address, .dict address, .given address⟩
    | _ =>
      refine .heap_bind (.raise ⟨?_, Or.inl rfl⟩)
      rintro given hgiven
      cases hgiven

theorem namesOf_concludes (heap : Heap) (items : List Value) :
    Concludes (fun names ↦ items = names.map .text)
      (fun exception ↦ (∀ names : List String, items ≠ names.map .text) ∧ exception.IsRefusal)
      (namesOf heap items) := by
  induction items with
  | nil => exact rfl
  | cons item rest ih =>
    rw [namesOf, List.mapM_cons]
    cases item with
    | text name =>
      change Concludes _ _ (namesOf heap rest >>= fun names ↦ Except.ok (name :: names))
      refine ih.bind ?_ ?_
      · rintro names rfl
        rfl
      · rintro exception ⟨hnone, hrefusal⟩
        refine ⟨fun names hnames ↦ ?_, hrefusal⟩
        cases names with
        | nil => cases hnames
        | cons first others => exact hnone others (List.cons.inj hnames).2
    | _ =>
      refine ⟨fun names hnames ↦ ?_, Or.inl rfl⟩
      cases names <;> cases hnames

theorem concludes_names (supplied : Option Value) :
    (names (supplied.getD (.tuple []))).Concludes settings respond world
      (fun names reached ↦ SuppliesNames world.heap supplied names ∧ reached = world)
      (fun exception ↦ (∀ names, ¬SuppliesNames world.heap supplied names) ∧
        exception.IsRefusal) := by
  refine .heap_bind ?_
  cases supplied with
  | none => exact .pure ⟨.absent, rfl⟩
  | some value =>
    cases value with
    | null => exact .pure ⟨.null, rfl⟩
    | tuple items =>
      refine .ofExcept ((namesOf_concludes world.heap items).mono ?_ ?_)
      · rintro names rfl
        exact .tuple names
      · rintro exception ⟨hnone, hrefusal⟩
        refine ⟨fun names hnames ↦ ?_, hrefusal⟩
        cases hnames
        exact hnone names rfl
    | list address =>
      refine .ofExcept ((namesOf_concludes world.heap (world.heap.items address)).mono ?_ ?_)
      · exact fun names hitems ↦ .list hitems
      · rintro exception ⟨hnone, hrefusal⟩
        refine ⟨fun names hnames ↦ ?_, hrefusal⟩
        cases hnames with
        | list hitems => exact hnone names hitems
    | _ =>
      refine .raise ⟨?_, Or.inl rfl⟩
      rintro names hnames
      cases hnames

theorem target_concludes (name : String) {value : Value} {level : Int}
    (hlevel : value.word? = some level) :
    Concludes (fun target : String × Nat ↦ target.1 = name ∧ level = target.2 ∧
        target.2 ≤ 0xffffffff ∧ (name ≠ "" ∨ 0 < target.2))
      (fun failure ↦ ∃ exception, failure = .raised exception ∧ exception.IsRefusal ∧
        ¬(0 ≤ level ∧ level ≤ 0xffffffff ∧ (name ≠ "" ∨ 0 < level)))
      (target (.text name) value) := by
  simp only [target, hlevel, Option.getD_some, maxLevel]
  by_cases hrange : 0 ≤ level ∧ level ≤ 0xffffffff
  · rw [if_neg (not_not.mpr hrange)]
    by_cases hnamed : name.isEmpty ∧ level = 0
    · rw [if_pos hnamed]
      refine ⟨_, rfl, Or.inr (Or.inl rfl), ?_⟩
      rintro ⟨-, -, hname | hpositive⟩
      · exact hname (String.isEmpty_iff.mp hnamed.1)
      · omega
    · rw [if_neg hnamed]
      refine ⟨rfl, (Int.toNat_of_nonneg hrange.1).symm, by omega, or_iff_not_imp_left.mpr ?_⟩
      intro hempty
      have hzero : level ≠ 0 := fun hzero ↦
        hnamed ⟨String.isEmpty_iff.mpr (not_not.mp hempty), hzero⟩
      omega
  · rw [if_pos hrange]
    refine ⟨_, rfl, Or.inr (Or.inl rfl), ?_⟩
    rintro ⟨hzero, hlimit, -⟩
    omega

/-- The check gives a request that serves the terms that the arguments state, or refuses arguments
that state none. -/
theorem concludes_prepare (positional : List Value) (keywords : Option Address) :
    let given := (keywords.map world.heap.entries).getD .empty
    (prepare (.of world.heap positional keywords)).Concludes settings respond world
      (fun request middle ↦
        ∃ terms, States world.heap positional given terms ∧ Serves world terms middle request)
      (fun exception ↦
        (∀ terms, ¬States world.heap positional given terms) ∧ exception.IsRefusal) := by
  intro given
  let supplied := Arguments.suppliedFor parameters positional given
  refine .heap_bind (.bind (Arguments.concludes_bind settings respond world positional keywords
    read_format (by decide) rfl rfl (by decide)) ?_ ?_)
  · rintro _ _ ⟨⟨⟨hplaceable, htakes⟩, rfl⟩, hsame⟩
    have hgiven : ∀ parameter ∈ parameters.take 1, (supplied parameter).isSome :=
      hplaceable.filled
    have htaken : ∀ kind parameter, (kind, parameter) ∈
        [ParameterKind.text, .any, .any, .any, .integer].zip parameters →
          ∀ value ∈ supplied parameter, (kind.taken? value).isSome :=
      fun kind parameter hpair ↦ htakes (kind, parameter) hpair
    obtain ⟨name, hname⟩ := Arguments.exists_of_taken_text (hgiven "name" (by decide))
      (htaken .text "name" (by decide))
    obtain ⟨level, hlevel, hword⟩ := Arguments.SuppliesWord.exists_of_taken
      (show Value.fitsWord 0 by decide) (htaken .integer "level" (by decide))
    have hbound : Arguments.taken [.text, .any, .any, .any, .integer] parameters
        [.null, .null, .null, .tuple [], .ofInt 0] supplied =
          [.text name, (supplied "globals").getD .null, (supplied "locals").getD .null,
            (supplied "fromlist").getD (.tuple []),
            ((supplied "level").bind ParameterKind.integer.taken?).getD (.ofInt 0)] := by
      simp only [Arguments.taken, parameters, List.zip_cons_cons, List.zip_nil_left,
        List.map_cons, List.map_nil, hname, Arguments.bind_taken?_any]
      rfl
    rw [hsame, hbound]
    refine .bind (.ofFailure (target_concludes name hword)) ?_ ?_
    · rintro ⟨requested, bounded⟩ _ ⟨⟨rfl, rfl, hbounded, hnamed⟩, hthere⟩
      rw [hthere]
      refine .bind (concludes_scope settings respond world "globals" (supplied "globals")) ?_ ?_
      · rintro globals reached ⟨globalScope, hglobals, hopens⟩
        refine .bind (concludes_scope settings respond reached "locals" (supplied "locals")) ?_ ?_
        · rintro locals middle ⟨localScope, hlocals, hthen⟩
          refine .bind (concludes_names settings respond middle (supplied "fromlist")) ?_ ?_
          · rintro names _ ⟨hnames, rfl⟩
            refine .pure ⟨⟨requested, globalScope, localScope, names, bounded⟩, ?_, ?_⟩
            · exact
                { placeable := hplaceable
                  name := hname
                  globals := hglobals
                  locals := hlocals
                  names := hnames.of_items fun list ↦
                    ((hthen.items_eq list).trans (hopens.items_eq list)).symm
                  level := hlevel
                  bounded := hbounded
                  named := hnamed }
            · exact ⟨rfl, rfl, rfl, reached, hopens, hthen⟩
          · rintro exception ⟨hnone, hrefusal⟩
            exact ⟨fun terms hterms ↦ hnone _ (hterms.names.of_items fun list ↦
              (hthen.items_eq list).trans (hopens.items_eq list)), hrefusal⟩
        · rintro exception ⟨hnone, hrefusal⟩
          exact ⟨fun terms hterms ↦ hnone _ hterms.locals, hrefusal⟩
      · rintro exception ⟨hnone, hrefusal⟩
        exact ⟨fun terms hterms ↦ hnone _ hterms.globals, hrefusal⟩
    · rintro exception ⟨hrefusal, hinvalid⟩
      refine ⟨fun terms hterms ↦ hinvalid ?_, hrefusal⟩
      have hsame := hlevel.unique hterms.level
      have hnamed := hterms.named
      have hbounded := hterms.bounded
      have hother := Value.text.inj (Option.some.inj (hname.symm.trans hterms.name))
      rw [hsame, hother]
      exact ⟨by omega, by omega, hnamed.imp_right Int.natCast_pos.mpr⟩
  · rintro exception ⟨hinvalid, hrefusal⟩
    refine ⟨fun terms hterms ↦ hinvalid ⟨hterms.placeable, ?_⟩, hrefusal⟩
    exact Arguments.takes_cons.mpr ⟨Arguments.isSome_taken_text hterms.name,
      Arguments.takes_cons.mpr ⟨fun _ _ ↦ rfl,
      Arguments.takes_cons.mpr ⟨fun _ _ ↦ rfl,
      Arguments.takes_cons.mpr ⟨fun _ _ ↦ rfl,
      Arguments.takes_cons.mpr ⟨hterms.level.isSome_taken?, Arguments.takes_nil⟩⟩⟩⟩⟩

end

/-- A call of `__import__` consults the importer exactly if the arguments state terms, and with a
request that serves them. -/
theorem consults_dispatch {settings : Settings} {world final : World} {positional : List Value}
    {keywords : Option Address} {deeds : List Deed} {ending : Ending Value}
    (hdoes : (Call.dispatch (.builtin (.function .importModule))
      (.of world.heap positional keywords)).Does deeds ending)
    (hpasses : world.Passes settings deeds final) :
    Consults settings .importModule world
      (States world.heap positional ((keywords.map world.heap.entries).getD .empty)) (Serves world)
      deeds ending := by
  let arguments := Arguments.of world.heap positional keywords
  have hdispatch : Call.dispatch (.builtin (.function .importModule)) arguments =
      (Program.heap >>= fun _ ↦ prepare arguments) >>= fun request ↦
        Program.effect (.importModule request) := by
    rw [bind_assoc, ← run_eq]
    rfl
  have hnative : (Program.heap >>= fun _ ↦ prepare arguments).Native :=
    .bind ⟨rfl, fun _ ↦ trivial⟩ fun _ ↦ native_prepare arguments
  rw [hdispatch] at hdoes
  have hprepare := concludes_prepare settings (fun _ world ↦ (.exhausted, world)) world positional
    keywords
  exact hdoes.consults hnative (fun _ _ hfirst hsecond ↦ hfirst.unique hsecond)
    (.heap_bind hprepare) hpasses

end Import

end Metaobject
