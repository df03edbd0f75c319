/-
**Leftmost search.**

`pieces` reads a text from left to right and cuts it into the occurrences of a pattern and the plain
characters between them: at each position it asks the pattern whether an occurrence begins there,
takes the first that does, and goes on behind it. The pattern also sees the character before the
position, which may lie inside the last occurrence.

`text_pieces`: when the pattern only reports what stands in the text, the pieces spell out the text
again, so nothing is lost, doubled or moved.
-/

namespace Phrasebook.Text

/-- A plain character, or an occurrence of a pattern. -/
inductive Piece (α : Type) where
  | plain (character : Char)
  | found (occurrence : α)
  deriving DecidableEq, Repr

/-- What a search looks for: the test at a position, given the character before it and the text from
there on, and the written form of an occurrence. -/
structure Pattern (α : Type) where
  /-- The occurrence that begins at a position. -/
  here? : Option Char → List Char → Option α
  /-- An occurrence as it is written. -/
  write : α → List Char

namespace Pattern

variable {α : Type}

/-- The pieces of the text behind `previous`, of whose characters the first `skip` belong to an
occurrence that was taken already. -/
def piecesFrom (pattern : Pattern α) : Nat → Option Char → List Char → List (Piece α)
  | _, _, [] => []
  | skip + 1, _, character :: rest => pattern.piecesFrom skip (some character) rest
  | 0, previous, character :: rest =>
    match pattern.here? previous (character :: rest) with
    | some occurrence =>
      .found occurrence ::
        pattern.piecesFrom ((pattern.write occurrence).length - 1) (some character) rest
    | none => .plain character :: pattern.piecesFrom 0 (some character) rest

/-- The text cut into plain characters and occurrences. -/
def pieces (pattern : Pattern α) (text : List Char) : List (Piece α) :=
  pattern.piecesFrom 0 none text

/-- A piece as it is written. -/
def spell (pattern : Pattern α) : Piece α → List Char
  | .plain character => [character]
  | .found occurrence => pattern.write occurrence

/-- The text of pieces. -/
def text (pattern : Pattern α) (pieces : List (Piece α)) : List Char :=
  pieces.flatMap pattern.spell

/-- The pattern reports only what stands in the text, and never the empty text. -/
structure Faithful (pattern : Pattern α) : Prop where
  /-- A reported occurrence is written at the position. -/
  written : ∀ {previous text occurrence}, pattern.here? previous text = some occurrence →
    pattern.write occurrence <+: text
  /-- An occurrence is not empty. -/
  nonempty : ∀ {previous text occurrence}, pattern.here? previous text = some occurrence →
    pattern.write occurrence ≠ []

/-! ### Nothing is lost -/

theorem text_piecesFrom {pattern : Pattern α} (faithful : pattern.Faithful) (skip : Nat)
    (previous : Option Char) (characters : List Char) :
    pattern.text (pattern.piecesFrom skip previous characters) = characters.drop skip := by
  induction characters generalizing skip previous with
  | nil => simp [piecesFrom, text]
  | cons character rest ih =>
    cases skip with
    | succ skip => simpa [piecesFrom] using ih skip (some character)
    | zero =>
      rw [piecesFrom]
      split
      next occurrence found =>
        obtain ⟨behind, split⟩ := faithful.written found
        obtain ⟨head, tail, shape⟩ := List.exists_cons_of_ne_nil (faithful.nonempty found)
        have rest_eq : rest = tail ++ behind := by
          rw [shape] at split
          exact (List.cons.inj split).2.symm
        have later := ih ((pattern.write occurrence).length - 1) (some character)
        rw [text] at later
        rw [text, List.flatMap_cons, later, rest_eq, spell, shape]
        rw [shape] at split
        simp [(List.cons.inj split).1]
      next =>
        have later := ih 0 (some character)
        rw [text] at later
        rw [text, List.flatMap_cons, later]
        simp [spell]

/-- The pieces of a text spell it out. -/
theorem text_pieces {pattern : Pattern α} (faithful : pattern.Faithful) (characters : List Char) :
    pattern.text (pattern.pieces characters) = characters :=
  text_piecesFrom faithful 0 none characters

end Pattern

end Phrasebook.Text
