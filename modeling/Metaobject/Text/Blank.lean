/-!
# Blank characters

The white space of Unicode (the property `White_Space`), and the text without the blanks at its two
ends (`trim`).
-/

set_option autoImplicit false
set_option relaxedAutoImplicit false

namespace Metaobject.Text.Blank

/-- The code points with the property `White_Space`, as inclusive ranges. -/
def ranges : List (Nat × Nat) :=
  [(0x09, 0x0d), (0x20, 0x20), (0x85, 0x85), (0xa0, 0xa0), (0x1680, 0x1680), (0x2000, 0x200a),
   (0x2028, 0x2029), (0x202f, 0x202f), (0x205f, 0x205f), (0x3000, 0x3000)]

/-- Whether a character is white space. -/
def isBlank (character : Char) : Bool :=
  ranges.any fun range => range.1 ≤ character.toNat && character.toNat ≤ range.2

/-- A text without its leading and trailing blanks. -/
def trim (text : List Char) : List Char :=
  ((text.dropWhile isBlank).reverse.dropWhile isBlank).reverse

end Metaobject.Text.Blank
