/-
**White space and trimming.**

The blank characters are those with the Unicode property White_Space. `trim` drops them at both
ends of a text.
-/

import Phrasebook.Text.Ranges

namespace Phrasebook.Text

/-- The characters with the property White_Space, by code point. -/
def blankRanges : List (Nat × Nat) :=
  [(0x9, 0xd), (0x20, 0x20), (0x85, 0x85), (0xa0, 0xa0), (0x1680, 0x1680), (0x2000, 0x200a),
    (0x2028, 0x2029), (0x202f, 0x202f), (0x205f, 0x205f), (0x3000, 0x3000)]

/-- Whether the character is white space. -/
def isBlank (character : Char) : Bool := inRanges blankRanges character

/-- The text without the white space at its two ends. -/
def trim (text : List Char) : List Char :=
  ((text.dropWhile isBlank).reverse.dropWhile isBlank).reverse

end Phrasebook.Text
