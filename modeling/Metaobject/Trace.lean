/-!
# Traces

The events that a run reports about builtin calls and class construction, and the observers that
take them (`Observer`). An observer never influences the run. One with a limit takes the first
events up to the limit; a printing one adds a notice after the last line it prints.
-/

set_option autoImplicit false
set_option relaxedAutoImplicit false

namespace Metaobject

/-- What a run reports. -/
inductive TraceEvent
  /-- A builtin function is entered, with the number of its positional arguments. -/
  | builtinCall (name : String) (count depth : Nat)
  /-- A builtin function is left, with a value or not. -/
  | builtinReturn (name : String) (succeeded : Bool) (depth : Nat)
  /-- The construction of a class has chosen its metaclass. -/
  | metaclassResolved (className metaclass : String)
  /-- The construction of a class has built it. -/
  | classBuilt (className metaclass : String)
  deriving DecidableEq

namespace TraceEvent

/-- A text filled up with blanks on its right. -/
def padded (width : Nat) (text : String) : String :=
  text ++ String.ofList (List.replicate (width - text.length) ' ')

/-- The line that a printing observer shows for an event. -/
def line : TraceEvent → String
  | builtinCall name count depth => s!"  >>> {padded 20 name} argc={count}  depth={depth}"
  | builtinReturn name succeeded depth =>
    let status := padded 7 (if succeeded then "ok" else "raised")
    s!"  <<< {padded 20 name} {status} depth={depth}"
  | metaclassResolved className metaclass =>
    s!"  ... class {padded 14 className} metaclass={metaclass}"
  | classBuilt className metaclass => s!"  +++ class {padded 14 className} built by {metaclass}"

end TraceEvent

/-- What takes the events of a run. -/
inductive Observer
  | silent
  /-- Keeps the events, newest first. -/
  | recording (limit : Option Nat) (events : List TraceEvent)
  /-- Prints a line per event; the lines are kept, newest first. -/
  | printing (limit : Option Nat) (count : Nat) (lines : List String)

namespace Observer

/-- Whether an event is taken after the given ones. -/
def hasRoom (limit : Option Nat) (events : List TraceEvent) : Bool :=
  limit.all fun bound => events.length < bound

/-- Whether a line is printed after `count` events. -/
def isBelow (limit : Option Nat) (count : Nat) : Bool := limit.all fun bound => count < bound

/-- The notice after the last line under a limit. -/
def notice (limit : Nat) : String := s!"--- trace limit reached ({limit} lines) ---"

/-- The observer after one more event. -/
def observe (event : TraceEvent) : Observer → Observer
  | silent => silent
  | recording limit events =>
    if hasRoom limit events then recording limit (event :: events)
    else recording limit events
  | printing limit count lines =>
    if isBelow limit count then
      if limit = some (count + 1) then
        printing limit (count + 1) (notice (count + 1) :: event.line :: lines)
      else printing limit (count + 1) (event.line :: lines)
    else printing limit count lines

/-- The recorded events, oldest first. -/
def events : Observer → List TraceEvent
  | recording _ events => events.reverse
  | _ => []

/-- The printed text, each line ended by a newline. -/
def printed : Observer → String
  | printing _ _ lines => String.join (lines.reverse.map (· ++ "\n"))
  | _ => ""

end Observer

end Metaobject
