/-!
# Tokens of JSON

A JSON text as its brackets, punctuation, words, numbers and strings (`Token.scan?`), with the
blanks between them left out. Control characters in strings, numbers with leading zeros and unknown
words are refused here; how tokens may follow each other is left to the reader.
-/

set_option autoImplicit false
set_option relaxedAutoImplicit false

namespace Metaobject.Json

/-- A token. -/
inductive Token
  | leftBracket
  | rightBracket
  | leftBrace
  | rightBrace
  | comma
  | colon
  | null
  | bool (truth : Bool)
  | number (numeral : String)
  | string (content : Option String)
  deriving DecidableEq

namespace Token

/-! ### Strings -/

/-- One element of a string: a character, or the number of an escape with four digits. -/
inductive Element
  | char (char : Char)
  | unit (unit : Nat)
  deriving DecidableEq

/-- The value of a hexadecimal digit. -/
def hexDigit? (digit : Char) : Option Nat :=
  if digit.isDigit then some (digit.toNat - '0'.toNat)
  else if 'a' ≤ digit ∧ digit ≤ 'f' then some (digit.toNat - 'a'.toNat + 10)
  else if 'A' ≤ digit ∧ digit ≤ 'F' then some (digit.toNat - 'A'.toNat + 10)
  else none

/-- The number of four hexadecimal digits. -/
def hexUnit? (first second third fourth : Char) : Option Nat := do
  let high := 16 * (← hexDigit? first) + (← hexDigit? second)
  let low := 16 * (← hexDigit? third) + (← hexDigit? fourth)
  return 256 * high + low

/-- The character of an escape with one letter. -/
def escape? : Char → Option Char
  | '"' => some '"'
  | '\\' => some '\\'
  | '/' => some '/'
  | 'b' => some '\x08'
  | 'f' => some '\x0c'
  | 'n' => some '\n'
  | 'r' => some '\r'
  | 't' => some '\t'
  | _ => none

/-- The elements of a string up to its closing quote, and what follows the quote. -/
def readElements : List Char → Option (List Element × List Char)
  | [] => none
  | '"' :: rest => some ([], rest)
  | '\\' :: 'u' :: first :: second :: third :: fourth :: rest => do
    let unit ← hexUnit? first second third fourth
    let (elements, rest) ← readElements rest
    return (.unit unit :: elements, rest)
  | '\\' :: letter :: rest => do
    let char ← escape? letter
    let (elements, rest) ← readElements rest
    return (.char char :: elements, rest)
  | char :: rest => do
    if char < ' ' then none
    let (elements, rest) ← readElements rest
    return (.char char :: elements, rest)

/-- The character of a surrogate pair. -/
def pairedChar (high low : Nat) : Char :=
  Char.ofNat (0x10000 + 1024 * (high - 0xD800) + (low - 0xDC00))

/-- The characters of a string: a high and a low surrogate in succession are one, and a surrogate
that is not in such a pair is none. -/
def joinElements : List Element → Option (List Char)
  | [] => some []
  | .char char :: rest => (joinElements rest).map (char :: ·)
  | .unit high :: .unit low :: rest =>
    if 0xD800 ≤ high ∧ high < 0xDC00 ∧ 0xDC00 ≤ low ∧ low < 0xE000 then
      (joinElements rest).map (pairedChar high low :: ·)
    else if 0xD800 ≤ high ∧ high < 0xE000 then none
    else (joinElements (.unit low :: rest)).map (Char.ofNat high :: ·)
  | .unit unit :: rest =>
    if 0xD800 ≤ unit ∧ unit < 0xE000 then none
    else (joinElements rest).map (Char.ofNat unit :: ·)

/-! ### Numbers -/

/-- Whether digits are the integer part of a number: some digits, and no zero before others. -/
def isIntegerPart : List Char → Bool
  | [] => false
  | ['0'] => true
  | first :: _ => first ≠ '0'

/-- The digits at the beginning of a text, which must be some, and the rest. -/
def readDigits (chars : List Char) : Option (List Char × List Char) :=
  match chars.takeWhile Char.isDigit with
  | [] => none
  | digits => some (digits, chars.dropWhile Char.isDigit)

/-- A fraction, if there is one. -/
def readFraction : List Char → Option (List Char × List Char)
  | '.' :: rest => (readDigits rest).map fun (digits, rest) => ('.' :: digits, rest)
  | rest => some ([], rest)

/-- The sign of an exponent, if there is one. -/
def readSign : List Char → List Char × List Char
  | '+' :: rest => (['+'], rest)
  | '-' :: rest => (['-'], rest)
  | rest => ([], rest)

/-- An exponent, if there is one. -/
def readExponent : List Char → Option (List Char × List Char)
  | [] => some ([], [])
  | letter :: rest =>
    if letter = 'e' ∨ letter = 'E' then
      let (sign, rest) := readSign rest
      (readDigits rest).map fun (digits, rest) => (letter :: sign ++ digits, rest)
    else some ([], letter :: rest)

/-- A number after its sign. -/
def readUnsigned (sign chars : List Char) : Option (Token × List Char) := do
  let (integerPart, rest) ← readDigits chars
  if !isIntegerPart integerPart then none
  let (fraction, rest) ← readFraction rest
  let (exponent, rest) ← readExponent rest
  return (.number (String.ofList (sign ++ integerPart ++ fraction ++ exponent)), rest)

/-! ### Texts -/

/-- Whether a character may stand between tokens. -/
def isBlank (char : Char) : Bool := char = ' ' || char = '\n' || char = '\t' || char = '\r'

/-- The token at the beginning of a text, and the rest. -/
def read? : List Char → Option (Token × List Char)
  | '[' :: rest => some (.leftBracket, rest)
  | ']' :: rest => some (.rightBracket, rest)
  | '\x7b' :: rest => some (.leftBrace, rest)
  | '\x7d' :: rest => some (.rightBrace, rest)
  | ',' :: rest => some (.comma, rest)
  | ':' :: rest => some (.colon, rest)
  | 'n' :: 'u' :: 'l' :: 'l' :: rest => some (.null, rest)
  | 't' :: 'r' :: 'u' :: 'e' :: rest => some (.bool true, rest)
  | 'f' :: 'a' :: 'l' :: 's' :: 'e' :: rest => some (.bool false, rest)
  | '"' :: rest => (readElements rest).map fun (elements, rest) =>
    (.string ((joinElements elements).map String.ofList), rest)
  | '-' :: rest => readUnsigned ['-'] rest
  | chars => readUnsigned [] chars

/-- The tokens of at most `steps` characters; every token and every blank takes one at least. -/
def scanWithin : Nat → List Char → Option (List Token)
  | _, [] => some []
  | 0, _ :: _ => none
  | steps + 1, char :: rest =>
    if isBlank char then scanWithin steps rest
    else do
      let (token, rest) ← read? (char :: rest)
      let tokens ← scanWithin steps rest
      return token :: tokens

/-- The tokens of a text. -/
def scan? (text : String) : Option (List Token) := scanWithin text.length text.toList

end Token

end Metaobject.Json
