import Metaobject.Number.Shortest

/-!
# The text of a double

A finite double is printed with its shortest digits. The layout is one record (`Layout`): which
decimal points are printed positionally. Positional notation has at least one digit on each side of
the point (`positional`); scientific notation has one digit before the point, no point for a single
digit, and an exponent that is as short as it can be (`scientific`). What is printed is respelled
(`respelled`): an exponent gets a sign in each case and at least two digits.
-/

set_option autoImplicit false
set_option relaxedAutoImplicit false

namespace Metaobject.Number.FloatText

open Metaobject.Number

/-! ### Printing -/

/-- Where positional notation ends. -/
structure Layout where
  /-- The least decimal point printed positionally. -/
  leastPoint : Int
  /-- The greatest decimal point printed positionally. -/
  greatestPoint : Int

/-- Decimals `0.d₁…dₙ * 10 ^ p` are positional for `p` from -4 to 16, as `ryu` lays them out. -/
def layout : Layout := ⟨-4, 16⟩

/-- A decimal without exponent. -/
def positional (decimal : Shortest.Decimal) : List Char :=
  let count : Int := decimal.digits.length
  if decimal.point ≤ 0 then
    '0' :: '.' :: (List.replicate (-decimal.point).toNat '0' ++ decimal.digits)
  else if count ≤ decimal.point then
    decimal.digits ++ List.replicate (decimal.point - count).toNat '0' ++ ['.', '0']
  else
    decimal.digits.take decimal.point.toNat ++ '.' :: decimal.digits.drop decimal.point.toNat

/-- A decimal with one digit before the point and an exponent, which has a sign if it is
negative. -/
def scientific (decimal : Shortest.Decimal) : List Char :=
  let exponent := decimal.point - 1
  let mantissa := match decimal.digits with
    | [] => []
    | [digit] => [digit]
    | digit :: rest => digit :: '.' :: rest
  let sign := if exponent < 0 then ['-'] else []
  mantissa ++ 'e' :: (sign ++ Nat.toDigits 10 exponent.natAbs)

/-- A positive decimal in the notation that the layout chooses. -/
def unsigned (format : Layout) (decimal : Shortest.Decimal) : List Char :=
  if format.leastPoint ≤ decimal.point ∧ decimal.point ≤ format.greatestPoint then
    positional decimal
  else scientific decimal

/-- A finite double given by its parts, as it is printed. -/
def ofParts (parts : Binary64.Parts) : List Char :=
  let magnitude :=
    if parts.significand = 0 then ['0', '.', '0'] else unsigned layout (Shortest.ofParts parts)
  if parts.negative then '-' :: magnitude else magnitude

/-! ### Respelling -/

/-- The least number of exponent digits. -/
def exponentDigits : Nat := 2

/-- Digits with zeros before them up to a width. -/
def padded (width : Nat) (digits : List Char) : List Char :=
  List.replicate (width - digits.length) '0' ++ digits

/-- An exponent with a sign in each case and at least two digits. -/
def respelledExponent : List Char → List Char
  | '-' :: digits => '-' :: padded exponentDigits digits
  | digits => '+' :: padded exponentDigits digits

/-- A printed number with its exponent respelled. A number without exponent and point gets a
fraction. -/
def respelled (printed : List Char) : List Char :=
  match printed.dropWhile (· ≠ 'e') with
  | letter :: exponent => printed.takeWhile (· ≠ 'e') ++ letter :: respelledExponent exponent
  | [] => if '.' ∈ printed then printed else printed ++ ['.', '0']

/-- The text of a double. -/
def text (number : Float) : String :=
  if number.isNaN then "nan"
  else if number.isInf then (if Binary64.isNegative number then "-inf" else "inf")
  else String.ofList (respelled (ofParts (Binary64.decode number)))

end Metaobject.Number.FloatText
