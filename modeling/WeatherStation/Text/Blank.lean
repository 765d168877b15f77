/-!
# Blanks

The white space characters of Unicode (the property `White_Space`), and what they separate.
-/

namespace WeatherStation.Text

/-- The code points with the property `White_Space`, as ranges. -/
def blankRanges : List (Nat × Nat) :=
  [(0x09, 0x0D), (0x20, 0x20), (0x85, 0x85), (0xA0, 0xA0), (0x1680, 0x1680), (0x2000, 0x200A),
   (0x2028, 0x2029), (0x202F, 0x202F), (0x205F, 0x205F), (0x3000, 0x3000)]

/-- Whether a character is white space. -/
def isBlank (c : Char) : Bool :=
  blankRanges.any fun r => r.1 ≤ c.toNat && c.toNat ≤ r.2

/-- The text without its leading white space. -/
def skipBlanks (s : List Char) : List Char := s.dropWhile isBlank

/-- The text without its leading and trailing white space. -/
def trim (s : List Char) : List Char := (skipBlanks (skipBlanks s).reverse).reverse

end WeatherStation.Text
