import Metaobject.Machine

/-!
# Sessions

A session runs one step after the other in one world. It starts with a main frame, in which the
globals and the locals are the same dict, and with one object for each module that can be imported.
A step that fails leaves the session usable: the world keeps what was done up to there.
-/

set_option autoImplicit false
set_option relaxedAutoImplicit false

namespace Metaobject

/-- What a session is started with. -/
structure Configuration where
  limits : Limits
  /-- Whether scripts can be run. -/
  runsScripts : Bool
  /-- Whether source can be compiled. -/
  compiles : Bool
  /-- The names of the modules that can be imported, if importing is possible at all. -/
  modules : Option (List String)
  sink : Sink
  observer : Observer

/-- A session between two steps. -/
structure Session where
  settings : Settings
  world : World
  /-- The scopes in which the steps run. -/
  frame : Frame

namespace Session

/-- A new module without entries of its own, with its name. -/
def addModule (name : String) (world : World) : (String × Address) × World :=
  let (namespaceDict, world) := world.allocate (.dict (World.moduleEntries name .empty))
  let (address, world) := world.allocate (.moduleObject name namespaceDict)
  ((name, address), world)

/-- New modules in order. -/
def addModules : List String → World → List (String × Address) × World
  | [], world => ([], world)
  | name :: rest, world =>
    let (first, world) := addModule name world
    let (others, world) := addModules rest world
    (first :: others, world)

/-- A session before its first step. -/
def start (configuration : Configuration) : Session :=
  let world := World.start configuration.sink configuration.observer
  let (main, world) := world.allocate (.dict .empty)
  let (modules, world) := addModules (configuration.modules.getD []) world
  { settings :=
      { limits := configuration.limits
        runsScripts := configuration.runsScripts
        compiles := configuration.compiles
        modules := configuration.modules.map fun _ => modules }
    world
    frame := ⟨main, main, []⟩ }

/-- The patience of a session: more than any run that ends can use up. -/
def patience : Nat := 0x1000000000000000

/-- Runs a program in the world of a session. -/
def run {Result : Type} (session : Session) (program : Program Result) :
    Ending Result × Session :=
  let (ending, world) :=
    program.run session.settings (Request.answer session.settings patience) session.world
  (ending, { session with world })

/-- Runs a statement for its value. -/
def step (session : Session) (statement : Script.Statement) : Ending Value × Session :=
  session.run (Script.runStep session.frame statement)

/-- The heap as it is now. -/
def heap (session : Session) : Heap := session.world.heap

end Session

end Metaobject
