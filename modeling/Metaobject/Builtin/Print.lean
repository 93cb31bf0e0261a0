import Metaobject.Operation.Text
import Metaobject.Value.Equality

/-!
# Printing

The builtin `print`. The keywords are checked first, then every value is converted to text, and then
the whole text is written at once; so a failing conversion writes nothing. The output is flushed
after the write if that is asked for.
-/

set_option autoImplicit false
set_option relaxedAutoImplicit false

namespace Metaobject.Print

/-- How values are printed. -/
structure Options where
  separator : String
  terminator : String
  flushes : Bool
  deriving DecidableEq

/-- Values with a blank between them and a newline after them. -/
def Options.standard : Options := ⟨" ", "\n", false⟩

/-- A text option; `null` asks for the standard text. -/
def textOption (heap : Heap) (name standard : String) : Value → Except Exception String
  | .null => .ok standard
  | .text content => .ok content
  | other => .error (.typeError s!"{name} must be None or a string, not {heap.typeName other}")

/-- The options with one keyword argument applied. -/
def Options.apply (heap : Heap) (options : Options) (key : String) (value : Value) :
    Except Exception Options :=
  match key with
  | "sep" => (textOption heap "sep" Options.standard.separator value).map fun separator =>
    { options with separator }
  | "end" => (textOption heap "end" Options.standard.terminator value).map fun terminator =>
    { options with terminator }
  | "file" =>
    if value.isNull then .ok options
    else .error (.typeError "print() file redirection is not supported")
  | "flush" => .ok { options with flushes := heap.isTrue value }
  | other => .error (.unknownKeyword BuiltinFunction.print.name other)

/-- The options that the keyword arguments ask for. -/
def Options.ofKeywords (heap : Heap) (keywords : List (String × Value)) :
    Except Exception Options :=
  keywords.foldlM (fun options (key, value) => options.apply heap key value) Options.standard

/-- The texts of values, converted in order. -/
def convertAll : List Value → Program (List String)
  | [] => .done []
  | value :: rest => do
    let text ← Operation.textOf value
    let texts ← convertAll rest
    return text :: texts

/-- Prints values. -/
def run (arguments : Arguments) : Program Value := do
  let heap ← Program.heap
  let options ← .ofExcept (Options.ofKeywords heap (arguments.keywordList heap))
  let texts ← convertAll arguments.positional
  Program.effect (.write (options.separator.intercalate texts ++ options.terminator))
  if options.flushes then Program.effect .flush
  return .null

end Metaobject.Print
