import Metaobject.Heap
import Metaobject.Output
import Metaobject.Trace

/-!
# The world of a run

Everything that a run can change (`World`): the heap, the call depth, the output, the observer and
the log of imports. The settings are fixed for a run: the limits, and which collaborators are
present to run scripts, to compile source and to find modules.
-/

set_option autoImplicit false
set_option relaxedAutoImplicit false

namespace Metaobject

/-! ### Settings -/

/-- Limits of a run. -/
structure Limits where
  /-- The greatest nesting of calls. -/
  maxDepth : Nat
  /-- The greatest size of an integer power, in bits. -/
  maxIntegerBits : Nat
  deriving DecidableEq

/-- A thousand nested calls, and integers of eight million bits. -/
def Limits.standard : Limits := ⟨1000, 8 * 1024 * 1024⟩

/-- What is fixed for a run. -/
structure Settings where
  limits : Limits
  /-- Whether scripts can be run. -/
  runsScripts : Bool
  /-- Whether source can be compiled. -/
  compiles : Bool
  /-- The modules that can be imported, by name, if importing is possible at all. -/
  modules : Option (List (String × Address))

/-! ### Requests to collaborators -/

/-- What an importer is asked for. -/
structure ImportRequest where
  name : String
  globals : Address
  locals : Address
  names : List String
  level : Nat

/-- What an importer was asked for, with the keys that the scopes had then. -/
structure ImportRecord where
  name : String
  globals : List String
  locals : List String
  names : List String
  level : Nat
  deriving DecidableEq

/-- What a compiler is asked for. -/
structure CompileRequest where
  source : String
  filename : String
  mode : CompileMode
  flags : Int
  ignoresContext : Bool

/-! ### The world -/

/-- What a run can change. -/
structure World where
  heap : Heap
  depth : Nat
  output : Output
  observer : Observer
  /-- The imports asked for, newest first. -/
  imports : List ImportRecord

namespace World

/-- The world before a run. -/
def start (sink : Sink) (observer : Observer) : World :=
  { heap := .empty, depth := 0, output := .start sink, observer, imports := [] }

/-- The world after an event is reported. -/
def observe (world : World) (event : TraceEvent) : World :=
  { world with observer := world.observer.observe event }

/-- A new object, at the next address. -/
def allocate (world : World) (object : Object) : Address × World :=
  (world.heap.size, { world with heap := world.heap.allocate object })

/-- A change of the heap. -/
def mapHeap (world : World) (change : Heap → Heap) : World :=
  { world with heap := change world.heap }

end World

end Metaobject
