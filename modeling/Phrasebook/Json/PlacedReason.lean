/-
**Reasons with their places.**

A reason is shown with the line and the column of a text that it is about. `PlacedReason.ofText`
takes such a place off the end of a wording and `PlacedReason.text` writes it there again; a reason
at line zero is about no place at all and is shown alone.
-/

namespace Phrasebook.Json

/-- A reason, and the place in a text that it is about. There is no line zero, which stands for no
place. -/
structure PlacedReason where
  reason : String
  line : Nat
  column : Nat
  deriving DecidableEq, Repr

namespace PlacedReason

/-- Lines and columns are counted in 64 bits. -/
def countLimit : Nat := Nat.pow 2 64

/-- The count in decimal digits at the end of a text right behind the words, and the text before
the words. -/
def countBehind? (words text : List Char) : Option (List Char × Nat) :=
  let digits := (text.reverse.takeWhile Char.isDigit).reverse
  let count := Nat.ofDigitChars 10 digits 0
  let before := text.take (text.length - digits.length)
  if digits.isEmpty || countLimit ≤ count || !words.isSuffixOf before then none
  else some (before.take (before.length - words.length), count)

/-- The reason in the wording, with the place at its end if it has one. -/
def ofText (wording : String) : PlacedReason :=
  let placed := do
    let (before, column) ← countBehind? " column ".toList wording.toList
    let (reason, line) ← countBehind? " at line ".toList before
    return (⟨String.ofList reason, line, column⟩ : PlacedReason)
  placed.getD ⟨wording, 0, 0⟩

/-- The reason in words, with its place. -/
def text (placed : PlacedReason) : String :=
  if placed.line = 0 then placed.reason
  else
    placed.reason ++ " at line " ++ toString placed.line ++ " column " ++ toString placed.column

end PlacedReason

end Phrasebook.Json
