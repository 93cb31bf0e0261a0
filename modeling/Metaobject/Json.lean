import Metaobject.Number.Numeral

/-!
# JSON values

The tree of a JSON text. Objects keep their fields in order, also repeated ones, and numbers keep
their digits, so no reader has to decide what they mean. A string is missing its content when it
escapes half of a surrogate pair, which stands for no text.
-/

set_option autoImplicit false
set_option relaxedAutoImplicit false

namespace Metaobject

/-- A JSON value. -/
inductive Json
  | null
  | bool (truth : Bool)
  /-- A number as it is written. -/
  | number (numeral : String)
  | string (content : Option String)
  | array (items : List Json)
  | object (fields : List (Option String × Json))

namespace Json

/-- A string with content. -/
def ofText (content : String) : Json := .string (some content)

/-- A natural number. -/
def ofNat (value : Nat) : Json := .number (toString value)

/-- An object with fields under texts. -/
def record (fields : List (String × Json)) : Json :=
  .object (fields.map fun (key, content) => (some key, content))

/-- The text of a string. -/
def text? : Json → Option String
  | .string content => content
  | _ => none

/-- A truth value. -/
def bool? : Json → Option Bool
  | .bool truth => some truth
  | _ => none

/-- A natural number below `bound`, written without sign, fraction and exponent. -/
def naturalBelow? (bound : Nat) : Json → Option Nat
  | .number numeral => (Number.Numeral.natural? numeral.toList).filter (· < bound)
  | _ => none

end Json

end Metaobject
