/-
**Sets of characters given by ranges of code points.**
-/

namespace Phrasebook.Text

/-- Whether the character's code point lies in one of the ranges, ends included. -/
def inRanges (ranges : List (Nat × Nat)) (character : Char) : Bool :=
  ranges.any fun range => range.1 ≤ character.toNat && character.toNat ≤ range.2

end Phrasebook.Text
