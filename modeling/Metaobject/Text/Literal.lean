import Metaobject.Text.Unprintable

/-!
# Literals

A text between double quotes and a character between single quotes, as messages about malformed
descriptors show them. The enclosing quote, the backslash and the common control characters have a
two-character escape; every other unprintable character is its code point in hexadecimal between
braces.
-/

set_option autoImplicit false
set_option relaxedAutoImplicit false

namespace Metaobject.Text.Literal

/-- A character by its code point. -/
def codePoint (character : Char) : List Char :=
  ['\\', 'u', '\x7b'] ++ Nat.toDigits 16 character.toNat ++ ['\x7d']

/-- One character as it is written between two `quote`s. -/
def written (quote character : Char) : List Char :=
  if character = '\x00' then ['\\', '0']
  else if character = '\t' then ['\\', 't']
  else if character = '\r' then ['\\', 'r']
  else if character = '\n' then ['\\', 'n']
  else if character = '\\' ∨ character = quote then ['\\', character]
  else if Unprintable.isUnprintable character then codePoint character
  else [character]

/-- A text between double quotes. -/
def text (content : String) : String :=
  String.ofList ('"' :: (content.toList.flatMap (written '"') ++ ['"']))

/-- A character between single quotes. -/
def character (content : Char) : String :=
  String.ofList ('\'' :: (written '\'' content ++ ['\'']))

end Metaobject.Text.Literal
