import Metaobject.Arguments
import Metaobject.Arguments.Descriptor
import Metaobject.Arguments.Parameters
import Metaobject.Attribute
import Metaobject.Builtin
import Metaobject.Builtin.Basic
import Metaobject.Builtin.BuildClass
import Metaobject.Builtin.Collaboration
import Metaobject.Builtin.Constructor
import Metaobject.Builtin.Print
import Metaobject.Call
import Metaobject.Capability
import Metaobject.ClassCreation
import Metaobject.ClassGraph.Basic
import Metaobject.ClassGraph.Linearization
import Metaobject.ClassGraph.Lookup
import Metaobject.ClassGraph.Merge
import Metaobject.ClassGraph.Metaclass
import Metaobject.DataForm
import Metaobject.Ending
import Metaobject.Entries
import Metaobject.Exception
import Metaobject.Exception.Wording
import Metaobject.ExceptionClass
import Metaobject.Heap
import Metaobject.Json
import Metaobject.Json.Reader
import Metaobject.Json.Token
import Metaobject.Machine
import Metaobject.Number.Binary64
import Metaobject.Number.FloatText
import Metaobject.Number.Numeral
import Metaobject.Number.Power
import Metaobject.Number.Rounding
import Metaobject.Number.Shortest
import Metaobject.Operation.Iteration
import Metaobject.Operation.Number
import Metaobject.Operation.Text
import Metaobject.Output
import Metaobject.Program
import Metaobject.Proofs.Arguments.Binding
import Metaobject.Proofs.Arguments.Descriptor
import Metaobject.Proofs.Arguments.Parameters
import Metaobject.Proofs.Arguments.Slots
import Metaobject.Proofs.Arguments.Supplied
import Metaobject.Proofs.Builtin.BuildClass
import Metaobject.Proofs.Builtin.ClassCall
import Metaobject.Proofs.Builtin.ClassNamespace
import Metaobject.Proofs.Builtin.Collaboration
import Metaobject.Proofs.Builtin.Iteration
import Metaobject.Proofs.Builtin.Power
import Metaobject.Proofs.Builtin.Printing
import Metaobject.Proofs.Builtin.Reports
import Metaobject.Proofs.Builtin.Resolution
import Metaobject.Proofs.Builtin.Rounding
import Metaobject.Proofs.Builtin.UserIterators
import Metaobject.Proofs.ClassGraph.Completeness
import Metaobject.Proofs.ClassGraph.Hierarchy
import Metaobject.Proofs.ClassGraph.Lookup
import Metaobject.Proofs.ClassGraph.Merge
import Metaobject.Proofs.ClassGraph.Metaclass
import Metaobject.Proofs.ClassGraph.MostDerived
import Metaobject.Proofs.ClassGraph.Precedence
import Metaobject.Proofs.ClassGraph.Update
import Metaobject.Proofs.Datum
import Metaobject.Proofs.Entries
import Metaobject.Proofs.Heap.Equality
import Metaobject.Proofs.Heap.Floats
import Metaobject.Proofs.Heap.Growth
import Metaobject.Proofs.Heap.Integers
import Metaobject.Proofs.Heap.Nesting
import Metaobject.Proofs.Heap.Ownership
import Metaobject.Proofs.Heap.Sparing
import Metaobject.Proofs.Heap.WellFormed
import Metaobject.Proofs.Heap.Written
import Metaobject.Proofs.Number.Binary64
import Metaobject.Proofs.Number.Decimal
import Metaobject.Proofs.Number.FloatText
import Metaobject.Proofs.Number.Grid
import Metaobject.Proofs.Number.Nearest
import Metaobject.Proofs.Number.Power
import Metaobject.Proofs.Number.Reading
import Metaobject.Proofs.Number.Rounding
import Metaobject.Proofs.Number.Shortest
import Metaobject.Proofs.Obedience.Arguments
import Metaobject.Proofs.Obedience.Builtin
import Metaobject.Proofs.Obedience.Call
import Metaobject.Proofs.Obedience.Guards
import Metaobject.Proofs.Obedience.Marks
import Metaobject.Proofs.Obedience.Operation
import Metaobject.Proofs.Obedience.Script
import Metaobject.Proofs.Run.Bracketing
import Metaobject.Proofs.Run.Collaborators
import Metaobject.Proofs.Run.Deeds
import Metaobject.Proofs.Run.Depth
import Metaobject.Proofs.Run.Divergence
import Metaobject.Proofs.Run.Faults
import Metaobject.Proofs.Run.Frames
import Metaobject.Proofs.Run.History
import Metaobject.Proofs.Run.Incidents
import Metaobject.Proofs.Run.Iterators
import Metaobject.Proofs.Run.Obedience
import Metaobject.Proofs.Run.Origins
import Metaobject.Proofs.Run.Ownership
import Metaobject.Proofs.Run.Patience
import Metaobject.Proofs.Run.Reachable
import Metaobject.Proofs.Run.Requests
import Metaobject.Proofs.Run.Safety
import Metaobject.Proofs.Run.Simulation
import Metaobject.Proofs.Run.Soundness
import Metaobject.Proofs.Run.Termination
import Metaobject.Proofs.Safety.Arguments
import Metaobject.Proofs.Safety.Attribute
import Metaobject.Proofs.Safety.Builtin
import Metaobject.Proofs.Safety.Call
import Metaobject.Proofs.Safety.Operation
import Metaobject.Proofs.Safety.Script
import Metaobject.Proofs.Session.AttributeStore
import Metaobject.Proofs.Session.CallDepth
import Metaobject.Proofs.Session.CallersDicts
import Metaobject.Proofs.Session.ClassCall
import Metaobject.Proofs.Session.Collaboration
import Metaobject.Proofs.Session.Completion
import Metaobject.Proofs.Session.Failures
import Metaobject.Proofs.Session.Faults
import Metaobject.Proofs.Session.Hierarchy
import Metaobject.Proofs.Session.Integers
import Metaobject.Proofs.Session.Iteration
import Metaobject.Proofs.Session.Limits
import Metaobject.Proofs.Session.Linearization
import Metaobject.Proofs.Session.Lookup
import Metaobject.Proofs.Session.Metaclass
import Metaobject.Proofs.Session.MetaclassChoice
import Metaobject.Proofs.Session.Observers
import Metaobject.Proofs.Session.Precedence
import Metaobject.Proofs.Session.Printing
import Metaobject.Proofs.Session.Subtyping
import Metaobject.Proofs.Session.Termination
import Metaobject.Proofs.Session.Trace
import Metaobject.Proofs.Text.Quoted
import Metaobject.Registry
import Metaobject.Script.Evaluation
import Metaobject.Script.Execution
import Metaobject.Script.Probing
import Metaobject.Script.Syntax
import Metaobject.Session
import Metaobject.Text.Blank
import Metaobject.Text.Literal
import Metaobject.Text.Quoted
import Metaobject.Text.Unprintable
import Metaobject.Trace
import Metaobject.Value
import Metaobject.Value.Equality
import Metaobject.Value.Written
import Metaobject.World
import Metaobject.World.Answer
