import DataShapes.Text.CodeRange

/-!
# Blank characters

Blank characters are those that the standard calls white space and the four information
separators.  Surrounding blanks do not count in names of types and in format versions.
-/

namespace DataShapes

namespace Text

/-- The ranges of blank characters. -/
def blankRanges : List (Nat × Nat) :=
  [(0x9, 0xD), (0x1C, 0x20), (0x85, 0x85), (0xA0, 0xA0), (0x1680, 0x1680), (0x2000, 0x200A),
   (0x2028, 0x2029), (0x202F, 0x202F), (0x205F, 0x205F), (0x3000, 0x3000)]

/-- The character is blank. -/
def isBlank (c : Char) : Bool := CodeRange.covers blankRanges c.toNat

/-- Drop the blank characters at both ends. -/
def trim (cs : List Char) : List Char :=
  ((cs.dropWhile isBlank).reverse.dropWhile isBlank).reverse

end Text

end DataShapes
