import Metaobject.ClassGraph.Linearization
import Metaobject.Ending
import Metaobject.Program

/-!
# How the world answers effects

The answer of the world to each effect and the world after it (`Effect.answer`). An effect either
reads, or creates one object with the dict it owns, or changes one object in place, or is passed to
the output, the observer or a collaborator. None of them runs a program.
-/

set_option autoImplicit false
set_option relaxedAutoImplicit false

namespace Metaobject

namespace World

/-- A new object whose address is the answer. -/
def create (world : World) (object : Object) : Ending Address × World :=
  let (address, world) := world.allocate object
  (.value address, world)

/-- A new object with a new dict of its own. -/
def createWithDict (world : World) (entries : Entries Value) (object : Address → Object) :
    Ending Address × World :=
  let (dict, world) := world.allocate (.dict entries)
  world.create (object dict)

/-- A change of the heap without answer. -/
def change (world : World) (change : Heap → Heap) : Ending Unit × World :=
  (.value (), world.mapHeap change)

/-- A new class, if its bases have a linearization. -/
def createClass (world : World) (definition : ClassDefinition) : Ending Address × World :=
  match world.heap.linearize definition.bases with
  | .error fault => (.raised fault, world)
  | .ok linearization => world.createWithDict definition.attributes fun dict =>
    .userClass ⟨definition.name, definition.metaclass, definition.bases, linearization, dict⟩

/-- The entries of a new module: those given, with the name of the module unless they have one. -/
def moduleEntries (name : String) (entries : Entries Value) : Entries Value :=
  if entries.contains "__name__" then entries else entries.insert "__name__" (.text name)

/-- Puts a value into a cell that is empty. -/
def fillCell (world : World) (cell : Address) (content : Value) : Ending Unit × World :=
  match world.heap.cell? cell with
  | some none => world.change fun heap => heap.setCell cell content
  | _ => (.fault "cell is already filled", world)

/-- Stores an attribute in the attribute dict of an object. -/
def storeAttribute (world : World) (holder : Address) (name : String) (content : Value) :
    Ending Unit × World :=
  match world.heap.attributeDict? holder with
  | some dict => world.change fun heap => heap.updateDict dict (·.insert name content)
  | none => (.value (), world)

/-- An output operation. -/
def emit (world : World) (operation : Output → Except Exception Output) : Ending Unit × World :=
  match operation world.output with
  | .ok output => (.value (), { world with output })
  | .error fault => (.raised fault, world)

/-! ### Collaborators -/

/-- The record of an import request. -/
def importRecord (heap : Heap) (request : ImportRequest) : ImportRecord :=
  ⟨request.name, (heap.entries request.globals).keys, (heap.entries request.locals).keys,
    request.names, request.level⟩

/-- The module that an import request gives: the module itself when names are imported from it, and
otherwise the package before the first point of its name. -/
def importTarget (request : ImportRequest) : String :=
  if request.names.isEmpty then String.ofList (request.name.toList.takeWhile (· ≠ '.'))
  else request.name

/-- Imports a module. Without an importer no module is found. -/
def importModule (settings : Settings) (world : World) (request : ImportRequest) :
    Ending Value × World :=
  match settings.modules with
  | none => (.raised (.noModule request.name), world)
  | some modules =>
    let record := importRecord world.heap request
    let world := { world with imports := record :: world.imports }
    match modules.lookup (importTarget request) with
    | some address => (.value (.moduleObject address), world)
    | none => (.raised (.noModule (importTarget request)), world)

/-- The body of compiled source: it gives back what was compiled. -/
def compiledBody (request : CompileRequest) : List Script.Statement :=
  [.result (.tuple
    [.literal (.text request.source), .literal (.text request.filename),
     .literal (.text request.mode.name), .literal (.int request.flags),
     .literal (.bool request.ignoresContext)])]

/-- Compiles source. Source that starts with an exclamation mark is no program. -/
def compileSource (settings : Settings) (world : World) (request : CompileRequest) :
    Ending Value × World :=
  if !settings.compiles then
    (.fault s!"no compiler configured to compile '{request.filename}'", world)
  else if request.source.startsWith "!" then
    (.raised ⟨.syntaxError, some "invalid syntax"⟩, world)
  else
    let (address, world) := world.allocate
      (.code ⟨"<module>", request.filename, [], false, .script (compiledBody request)⟩)
    (.value (.code address), world)

/-- Starts to run code: its statements, if scripts are run and it is a script. -/
def enterBody (settings : Settings) (world : World) (code : Address) :
    Ending (List Script.Statement) × World :=
  match world.heap.code? code with
  | none => (.fault "no code object to run", world)
  | some record =>
    if !settings.runsScripts then
      (.fault s!"no executor configured to run code object '{record.name}'", world)
    else match record.body with
      | .script statements => (.value statements, world)
      | .foreign => (.fault "code object without a script payload", world)

end World

/-- How the world answers an effect. -/
def Effect.answer (settings : Settings) : {Answer : Type} → Effect Answer → World →
    Ending Answer × World
  | _, .heap, world => (.value world.heap, world)
  | _, .depth, world => (.value world.depth, world)
  | _, .permitBits bits, world =>
    if settings.limits.maxIntegerBits < bits then (.raised .powerTooLarge, world)
    else (.value (), world)
  | _, .newList items, world => world.create (.list items)
  | _, .newDict entries, world => world.create (.dict entries)
  | _, .newCell content, world => world.create (.cell content)
  | _, .newIterator items, world => world.create (.iterator items)
  | _, .newClass definition, world => world.createClass definition
  | _, .newInstance cls, world => world.createWithDict .empty (.instanceOf cls)
  | _, .newFunction record, world => world.create (.function record)
  | _, .newMethod receiver function, world => world.create (.method receiver function)
  | _, .newCode record, world => world.create (.code record)
  | _, .newModule name entries, world =>
    world.createWithDict (World.moduleEntries name entries) (.moduleObject name)
  | _, .newException exception, world => world.create (.exception exception)
  | _, .bindName scope name content, world =>
    world.change fun heap => heap.updateDict scope (·.insert name content)
  | _, .storeAttribute holder name content, world => world.storeAttribute holder name content
  | _, .insertEntry dict key content, world =>
    world.change fun heap => heap.updateDict dict (·.insert key content)
  | _, .eraseEntry dict key, world =>
    world.change fun heap => heap.updateDict dict (·.erase key)
  | _, .appendItem list item, world => world.change fun heap => heap.append list item
  | _, .setCell cell content, world => world.change fun heap => heap.setCell cell content
  | _, .fillCell cell content, world => world.fillCell cell content
  | _, .takeItem iterator, world =>
    match world.heap.remaining iterator with
    | [] => (.value none, world)
    | item :: rest => (.value (some item), world.mapHeap fun heap => heap.advance iterator rest)
  | _, .takeAll iterator, world =>
    (.value (world.heap.remaining iterator), world.mapHeap fun heap => heap.advance iterator [])
  | _, .write text, world => world.emit fun output => output.write text
  | _, .flush, world => world.emit Output.flush
  | _, .reportMetaclass className metaclass, world =>
    (.value (), world.observe (.metaclassResolved className metaclass))
  | _, .reportClass className metaclass, world =>
    (.value (), world.observe (.classBuilt className metaclass))
  | _, .importModule request, world => world.importModule settings request
  | _, .compileSource request, world => world.compileSource settings request
  | _, .enterBody code, world => world.enterBody settings code

end Metaobject
