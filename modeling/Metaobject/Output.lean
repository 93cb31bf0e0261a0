import Metaobject.Exception.Wording

/-!
# Output

Where printed text goes. A collecting sink keeps the text, a discarding one forgets it, and a
logging one keeps one entry per write and per flush; each of the two can be made to fail, and a
failing operation logs nothing.
-/

set_option autoImplicit false
set_option relaxedAutoImplicit false

namespace Metaobject

/-- How printed text is taken. -/
inductive Sink
  | collecting
  | discarding
  | logging (failsToWrite failsToFlush : Bool)
  deriving DecidableEq

/-- A sink with what it has taken. -/
structure Output where
  sink : Sink
  /-- The collected text. -/
  text : String
  /-- The log, newest first. -/
  newestFirst : List String

namespace Output

/-- A sink that has taken nothing. -/
def start (sink : Sink) : Output := ⟨sink, "", []⟩

/-- The log, oldest first. -/
def log (output : Output) : List String := output.newestFirst.reverse

/-- What a failing sink raises. -/
def closed : Exception := ⟨.osError, some "sink is closed"⟩

/-- Writes a text. -/
def write (output : Output) (text : String) : Except Exception Output :=
  match output.sink with
  | .collecting => .ok { output with text := output.text ++ text }
  | .discarding => .ok output
  | .logging true _ => .error closed
  | .logging false _ => .ok { output with newestFirst := ("write:" ++ text) :: output.newestFirst }

/-- Flushes what was written. -/
def flush (output : Output) : Except Exception Output :=
  match output.sink with
  | .collecting | .discarding => .ok output
  | .logging _ true => .error closed
  | .logging _ false => .ok { output with newestFirst := "flush:" :: output.newestFirst }

end Output

end Metaobject
