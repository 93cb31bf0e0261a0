/-!
# Quoted text and quoted bytes

The written form of a string and of a byte string. A single quote encloses the content unless the
content has a single quote and no double quote (`quoteFor`, `byteQuoteFor`). Inside, the backslash,
the enclosing quote, newline, carriage return and tab have a two-character escape; every other
control character or unprintable byte is `\x` and two hexadecimal digits (`written`,
`writtenByte`); all else stands for itself.
-/

set_option autoImplicit false
set_option relaxedAutoImplicit false

namespace Metaobject.Text.Quoted

/-! ### Escapes -/

/-- The character that stands for a value below sixteen. -/
def hexDigit (value : Nat) : Char := Nat.digitChar value

/-- A number below 256 as `\x` and two lowercase hexadecimal digits. -/
def hexEscape (code : Nat) : List Char :=
  ['\\', 'x', hexDigit (code / 16 % 16), hexDigit (code % 16)]

/-- The control characters: the code points below U+0020 and from U+007F to U+009F. -/
def isControl (character : Char) : Bool :=
  character.toNat < 0x20 || (0x7f ≤ character.toNat && character.toNat < 0xa0)

/-! ### Strings -/

/-- The quote that encloses a string: a double quote exactly when the string has a single quote and
no double quote. -/
def quoteFor (content : List Char) : Char :=
  if content.contains '\'' && !content.contains '"' then '"' else '\''

/-- One character of a string as it is written between two `quote`s. -/
def written (quote character : Char) : List Char :=
  if character = '\\' then ['\\', '\\']
  else if character = '\n' then ['\\', 'n']
  else if character = '\r' then ['\\', 'r']
  else if character = '\t' then ['\\', 't']
  else if character = quote then ['\\', character]
  else if isControl character then hexEscape character.toNat
  else [character]

/-- The characters of a quoted string, quotes included. -/
def encode (content : List Char) : List Char :=
  quoteFor content :: (content.flatMap (written (quoteFor content)) ++ [quoteFor content])

/-- A string in quotes. -/
def text (content : String) : String := String.ofList (encode content.toList)

/-! ### Bytes -/

/-- The quote that encloses a byte string, chosen as for strings. -/
def byteQuoteFor (content : List UInt8) : UInt8 :=
  if content.contains 39 && !content.contains 34 then 34 else 39

/-- One byte as it is written between two `quote`s. -/
def writtenByte (quote byte : UInt8) : List Char :=
  if byte = 92 then ['\\', '\\']
  else if byte = 10 then ['\\', 'n']
  else if byte = 13 then ['\\', 'r']
  else if byte = 9 then ['\\', 't']
  else if byte = quote then ['\\', Char.ofNat byte.toNat]
  else if 0x20 ≤ byte ∧ byte < 0x7f then [Char.ofNat byte.toNat]
  else hexEscape byte.toNat

/-- The characters of a quoted byte string: the letter `b`, then the bytes between quotes. -/
def encodeBytes (content : List UInt8) : List Char :=
  let quote := byteQuoteFor content
  'b' :: Char.ofNat quote.toNat ::
    (content.flatMap (writtenByte quote) ++ [Char.ofNat quote.toNat])

/-- A byte string in quotes. -/
def bytes (content : List UInt8) : String := String.ofList (encodeBytes content)

end Metaobject.Text.Quoted
