import Metaobject.Number.Binary64
import Metaobject.Text.Blank

/-!
# Reading numbers

Decimal numerals as the constructors `int` and `float` accept them. An integer numeral is an
optional sign and digits, with blanks around it and underscores anywhere (`integer?`). A floating
numeral has an optional sign, digits with at most one point, and an optional exponent, or is one of
the words for infinity and for the number that is not one (`float?`); it is read as the nearest
double.
-/

set_option autoImplicit false
set_option relaxedAutoImplicit false

namespace Metaobject.Number.Numeral

open Metaobject.Number

/-! ### Integers -/

/-- The number written by decimal digits. -/
def digitsValue (digits : List Char) : Nat :=
  digits.foldl (fun value digit => 10 * value + (digit.toNat - '0'.toNat)) 0

/-- The number written by a nonempty run of decimal digits. -/
def natural? (digits : List Char) : Option Nat :=
  if !digits.isEmpty && digits.all Char.isDigit then some (digitsValue digits) else none

/-- An optional sign and digits. -/
def signed? : List Char → Option Int
  | '-' :: digits => (natural? digits).map fun value => -(value : Int)
  | '+' :: digits => (natural? digits).map fun value => (value : Int)
  | digits => (natural? digits).map fun value => (value : Int)

/-- The integer that a text denotes, blanks around it and underscores aside. -/
def integer? (text : String) : Option Int :=
  signed? ((Text.Blank.trim text.toList).filter (· ≠ '_'))

/-! ### Doubles -/

/-- The double nearest to `coefficient * 10 ^ exponent`. Exponents far outside the range of doubles
are decided by the position of the leading digit. -/
def nearestDecimal (negative : Bool) (coefficient : Nat) (exponent : Int) : Float :=
  let point : Int := (Nat.toDigits 10 coefficient).length + exponent
  if coefficient = 0 ∨ point < -400 then Binary64.ofRatio negative 0 1
  else if 400 < point then
    if negative then -Binary64.infinity else Binary64.infinity
  else if 0 ≤ exponent then Binary64.ofRatio negative (coefficient * Nat.pow 10 exponent.toNat) 1
  else Binary64.ofRatio negative coefficient (Nat.pow 10 (-exponent).toNat)

/-- The exponent after the digits of a numeral: absent, or the letter `e` and a signed integer. -/
def exponent? : List Char → Option Int
  | [] => some 0
  | letter :: rest => if letter = 'e' ∨ letter = 'E' then signed? rest else none

/-- The fraction digits after the whole digits of a numeral, and what follows them. -/
def fraction : List Char → List Char × List Char
  | '.' :: rest => (rest.takeWhile Char.isDigit, rest.dropWhile Char.isDigit)
  | rest => ([], rest)

/-- An unsigned decimal numeral with optional fraction and exponent; it has at least one digit. -/
def decimal? (negative : Bool) (text : List Char) : Option Float :=
  let whole := text.takeWhile Char.isDigit
  let (fractionDigits, rest) := fraction (text.dropWhile Char.isDigit)
  if whole.isEmpty && fractionDigits.isEmpty then none
  else (exponent? rest).map fun exponent =>
    nearestDecimal negative (digitsValue (whole ++ fractionDigits))
      (exponent - fractionDigits.length)

/-- The words for the doubles that no digits denote, in any case of letters. -/
def word? (negative : Bool) (text : List Char) : Option Float :=
  let lowered := String.ofList (text.map Char.toLower)
  if lowered = "inf" ∨ lowered = "infinity" then
    some (if negative then -Binary64.infinity else Binary64.infinity)
  else if lowered = "nan" then some (0.0 / 0.0)
  else none

/-- An unsigned numeral or word. -/
def unsigned? (negative : Bool) (text : List Char) : Option Float :=
  (decimal? negative text).orElse fun _ => word? negative text

/-- The double that a text without blanks denotes. -/
def floatOf? : List Char → Option Float
  | '-' :: text => unsigned? true text
  | '+' :: text => unsigned? false text
  | text => unsigned? false text

/-- The double that a text denotes, blanks around it aside. -/
def float? (text : String) : Option Float := floatOf? (Text.Blank.trim text.toList)

end Metaobject.Number.Numeral
