import Propositional.Text.Ranges

/-!
# Blanks

The characters that only separate, and texts without them at their ends.
-/

namespace Propositional.Text

/-- The code points with the property White_Space. -/
def blankRanges : List (Nat × Nat) :=
  [(0x09, 0x0D), (0x20, 0x20), (0x85, 0x85), (0xA0, 0xA0), (0x1680, 0x1680), (0x2000, 0x200A),
   (0x2028, 0x2029), (0x202F, 0x202F), (0x205F, 0x205F), (0x3000, 0x3000)]

def isBlank (c : Char) : Bool :=
  inRanges blankRanges c

/-- A text without the blanks at its start. -/
def trimStart (s : List Char) : List Char :=
  s.dropWhile isBlank

/-- A text without the blanks at its two ends. -/
def trim (s : List Char) : List Char :=
  (trimStart (trimStart s).reverse).reverse

end Propositional.Text
