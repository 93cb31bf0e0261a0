import Metaobject.Proofs.Builtin.Collaboration
import Metaobject.Proofs.Session.Trace

/-!
# Consulting collaborators in calls

A call of `__import__` or `compile` that is not refused for its depth consults its collaborator
exactly if its arguments are valid (`Session.collaborators_consulted`). This is so with the
collaborators of the run, and with any others in their place
(`BuiltinCall.ConsultsCollaborator`).
-/

set_option autoImplicit false
set_option relaxedAutoImplicit false

namespace Metaobject

namespace BuiltinCall

/-- What the program of a call does, unless the call is refused. -/
def deeds (settings : Settings) (call : BuiltinCall) : List Deed :=
  call.program.deeds settings (Request.answer settings (call.patience - 1)) call.began

/-- Whether a call consults a collaborator exactly if terms are stated: in the run, and whatever the
collaborators answer and do. -/
structure ConsultsCollaborator {Terms Wanted : Type} (settings : Settings) (call : BuiltinCall)
    (consult : Wanted → Effect Value) (stated : Terms → Prop)
    (serves : Terms → World → Wanted → Prop) : Prop where
  run : Consults settings consult call.began stated serves (call.deeds settings)
    (call.outcome settings).1
  any : ∀ deeds ending final, call.program.Does deeds ending →
    call.began.Passes settings deeds final →
      Consults settings consult call.began stated serves deeds ending

/-- What holds whatever the collaborators answer and do holds in the run. -/
theorem ConsultsCollaborator.of_any {Terms Wanted : Type} {settings : Settings}
    {call : BuiltinCall} {consult : Wanted → Effect Value} {stated : Terms → Prop}
    {serves : Terms → World → Wanted → Prop} {patience : Nat}
    (hpatience : call.patience = patience + 1)
    (hdepth : call.world.depth < settings.limits.maxDepth)
    (hany : ∀ deeds ending final, call.program.Does deeds ending →
      call.began.Passes settings deeds final →
        Consults settings consult call.began stated serves deeds ending) :
    call.ConsultsCollaborator settings consult stated serves where
  run := by
    rw [deeds, call.outcome_of_entered hpatience (Nat.not_le.mpr hdepth), hpatience]
    exact hany _ _ _
      (call.program.does_deeds settings (Request.answer settings patience) call.began)
      (call.program.passes_deeds call.began)
  any := hany

end BuiltinCall

namespace Session

/-- A call of `__import__` or `compile` consults its collaborator exactly if the arguments are
valid, once and with what they ask for, and then ends as the collaborator does. Otherwise no
collaborator is consulted, and the call raises an exception. -/
theorem collaborators_consulted (settings : Settings) (world : World) (patience : Nat)
    (positional : List Value) (keywords : Option Address)
    (hdepth : world.depth < settings.limits.maxDepth) :
    let arguments := Arguments.of world.heap positional keywords
    let given := (keywords.map world.heap.entries).getD .empty
    let importing : BuiltinCall := ⟨.importModule, arguments, patience + 1, world⟩
    let compiling : BuiltinCall := ⟨.compile, arguments, patience + 1, world⟩
    importing.ConsultsCollaborator settings .importModule
        (Import.States world.heap positional given) (Import.Serves importing.began) ∧
      compiling.ConsultsCollaborator settings .compileSource (Compile.States positional given)
        (fun stated middle request ↦ request = stated ∧ middle = compiling.began) := by
  intro arguments given importing compiling
  constructor
  · refine .of_any rfl hdepth fun deeds ending final hdoes hpasses ↦ ?_
    exact Import.consults_dispatch hdoes hpasses
  · refine .of_any rfl hdepth fun deeds ending final hdoes hpasses ↦ ?_
    exact Compile.consults_dispatch hdoes hpasses

/-! ### An import that is made and a compilation that is not -/

namespace Consulting

open Script

/-- A dict of globals, the names to import, the keywords of an import, which have both, and those of
a compilation. -/
def statements : List Statement :=
  [.assign .locals "scope" (.dict [("a", .literal (.int 1))]),
   .assign .locals "names" (.list [.literal (.text "b")]),
   .assign .locals "importing" (.dict [("globals", .variable "scope"),
     ("fromlist", .variable "names"), ("level", .literal (.bool true))]),
   .assign .locals "compiling" (.dict [("optimize", .literal (.int 9))])]

/-- There are an importer and a compiler. -/
def configuration : Configuration :=
  { Configuration.scripted with compiles := true, modules := some ["p"] }

/-- The session after the statements. -/
def session : Session := (Session.start configuration).after 2 statements

/-- What the import asks for. -/
def terms : Import.Terms := ⟨"p", some 3, none, ["b"], 1⟩

theorem states_terms :
    Import.States session.world.heap [.text "p"] (session.world.heap.entries 5) terms where
  placeable :=
    { few := by decide
      placed := fun key hkey ↦ by
        have hkeys : (session.world.heap.entries 5).keys = ["globals", "fromlist", "level"] := by
          with_unfolding_all rfl
        have hplaces : ∀ key ∈ ["globals", "fromlist", "level"],
            key ∈ Import.parameters ∧ 1 ≤ Import.parameters.idxOf key := by decide
        rw [Entries.contains_iff_mem_keys, hkeys] at hkey
        exact hplaces key hkey
      filled := by with_unfolding_all decide }
  name := rfl
  globals := by
    have hscope : Arguments.suppliedFor Import.parameters [.text "p"]
        (session.world.heap.entries 5) "globals" = some (.dict 3) := by with_unfolding_all rfl
    rw [hscope]
    exact .dict 3
  locals := .absent
  names := .list (by with_unfolding_all rfl)
  level := .truth true
  bounded := by decide
  named := Or.inl (by decide)

/-- There is no optimization level of nine. -/
theorem not_states (request : CompileRequest) :
    ¬Compile.States [.text "s", .text "f", .text "exec"] (session.world.heap.entries 6)
      request := by
  intro hstates
  obtain ⟨level, hlevel, -, hlimit⟩ := hstates.optimization
  have hnine : Arguments.suppliedFor Compile.parameters [.text "s", .text "f", .text "exec"]
      (session.world.heap.entries 6) "optimize" = some (.int 9) := by with_unfolding_all rfl
  rw [hnine] at hlevel
  cases hlevel
  exact absurd hlimit (by decide)

end Consulting

/-- The importer is consulted with the dict of globals as it is and with a new dict of locals. No
compiler is consulted. -/
theorem importer_consulted_alone :
    let settings := Consulting.session.settings
    let world := Consulting.session.world
    let importing : BuiltinCall :=
      ⟨.importModule, .of world.heap [.text "p"] (some 5), 1, world⟩
    let compiling : BuiltinCall :=
      ⟨.compile, .of world.heap [.text "s", .text "f", .text "exec"] (some 6), 1, world⟩
    (∃ before, importing.deeds settings = before ++
        [.performs (.importModule ⟨"p", 3, 7, ["b"], 1⟩) (importing.outcome settings).1] ∧
      ∀ deed ∈ before, deed.isNative) ∧
    (∀ deed ∈ compiling.deeds settings, deed.isNative) ∧
    ∃ exception, (compiling.outcome settings).1 = .raised exception := by
  intro settings world importing compiling
  have hdepth : world.depth < settings.limits.maxDepth := by with_unfolding_all decide
  obtain ⟨himport, -⟩ := collaborators_consulted settings world 0 [.text "p"] (some 5) hdepth
  obtain ⟨-, hcompile⟩ := collaborators_consulted settings world 0
    [.text "s", .text "f", .text "exec"] (some 6) hdepth
  constructor
  · obtain ⟨⟨name, globals, locals, names, level⟩, before, middle, hserves, hdeeds, hbefore, -⟩ :=
      himport.run.consulted Consulting.terms Consulting.states_terms
    obtain rfl : name = "p" := hserves.name
    obtain rfl : names = ["b"] := hserves.names
    obtain rfl : level = 1 := hserves.level
    obtain ⟨reached, hglobals, hlocals⟩ := hserves.scopes
    cases hglobals
    cases hlocals
    exact ⟨before, hdeeds, hbefore⟩
  · obtain ⟨hnative, exception, hraised, -⟩ := hcompile.run.spared Consulting.not_states
    exact ⟨hnative, exception, hraised⟩

end Session

end Metaobject
