/-!
# Blank characters

The characters of the Unicode property `White_Space`, and the removal of a
blank margin. Texts are taken as lists of characters here and in the other
readers, so that statements about them go by recursion on the list.
-/

namespace HexSlab.Text

/-- The ranges of the Unicode property `White_Space`, by first and last code point. -/
def blankRanges : List (Nat × Nat) :=
  [(0x9, 0xD), (0x20, 0x20), (0x85, 0x85), (0xA0, 0xA0), (0x1680, 0x1680), (0x2000, 0x200A),
    (0x2028, 0x2029), (0x202F, 0x202F), (0x205F, 0x205F), (0x3000, 0x3000)]

/-- A character with the property `White_Space`. -/
def isBlank (c : Char) : Bool :=
  blankRanges.any fun range => range.1 ≤ c.toNat && c.toNat ≤ range.2

/-- The text without its leading blank characters. -/
def trimLeft (text : List Char) : List Char := text.dropWhile isBlank

/-- The text without its leading and trailing blank characters. -/
def trim (text : List Char) : List Char := (trimLeft (trimLeft text).reverse).reverse

end HexSlab.Text
