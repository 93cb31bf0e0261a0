import Metaobject.Json
import Metaobject.Json.Token

/-!
# Reading JSON

The value of a JSON text (`Json.parse?`). The whole text must be one value; commas stand between
items and between fields only.
-/

set_option autoImplicit false
set_option relaxedAutoImplicit false

namespace Metaobject.Json

/-- A token that is a value of its own. -/
def ofToken? : Token → Option Json
  | .null => some .null
  | .bool truth => some (.bool truth)
  | .number numeral => some (.number numeral)
  | .string content => some (.string content)
  | _ => none

mutual

/-- The value at the beginning of some tokens, and the rest. -/
def readValue : Nat → List Token → Option (Json × List Token)
  | 0, _ => none
  | _ + 1, .leftBracket :: .rightBracket :: rest => some (.array [], rest)
  | _ + 1, .leftBrace :: .rightBrace :: rest => some (.object [], rest)
  | steps + 1, .leftBracket :: rest =>
    (readItems steps rest).map fun (items, rest) => (.array items, rest)
  | steps + 1, .leftBrace :: rest =>
    (readFields steps rest).map fun (fields, rest) => (.object fields, rest)
  | _ + 1, token :: rest => (ofToken? token).map fun value => (value, rest)
  | _ + 1, [] => none

/-- The items of an array up to its closing bracket, and the rest. -/
def readItems : Nat → List Token → Option (List Json × List Token)
  | 0, _ => none
  | steps + 1, tokens => do
    let (item, rest) ← readValue steps tokens
    match rest with
    | .comma :: rest => do
      let (items, rest) ← readItems steps rest
      return (item :: items, rest)
    | .rightBracket :: rest => return ([item], rest)
    | _ => none

/-- The fields of an object up to its closing brace, and the rest. -/
def readFields : Nat → List Token → Option (List (Option String × Json) × List Token)
  | 0, _ => none
  | steps + 1, .string key :: .colon :: tokens => do
    let (content, rest) ← readValue steps tokens
    match rest with
    | .comma :: rest => do
      let (fields, rest) ← readFields steps rest
      return ((key, content) :: fields, rest)
    | .rightBrace :: rest => return ([(key, content)], rest)
    | _ => none
  | _ + 1, _ => none

end

/-- The value of some tokens, all of which it takes. Each step takes a token, except the one from an
item to its value. -/
def ofTokens? (tokens : List Token) : Option Json :=
  match readValue (2 * tokens.length) tokens with
  | some (value, []) => some value
  | _ => none

/-- The value of a text. -/
def parse? (text : String) : Option Json := (Token.scan? text).bind ofTokens?

end Metaobject.Json
