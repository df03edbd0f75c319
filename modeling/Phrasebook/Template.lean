/-
**Templates.**

A template is text in which a slot group `{a|b|c}` stands for any one of its alternatives. Double
braces are no slot group: a group is directly preceded by no opening and followed by no closing
brace. `Template.parse` cuts a text into fixed parts and numbered slots, `Template.print` writes it
back, and `Template.phrases` lists the phrases that it stands for, the alternatives of the first
slot varying slowest.
-/

import Phrasebook.Text.Search
import Phrasebook.Text.Split

namespace Phrasebook

open Text

/-- Whether a character is neither brace. -/
def isPlain (character : Char) : Bool := character != '{' && character != '}'

/-! ### Slot groups -/

/-- The content of the slot group that the text begins with, when it does not stand behind an
opening brace. -/
def groupContent? (previous : Option Char) (text : List Char) : Option (List Char) :=
  match previous, text with
  | some '{', _ => none
  | _, '{' :: rest =>
    match rest.takeWhile isPlain, rest.dropWhile isPlain with
    | [], _ => none
    | _, '}' :: '}' :: _ => none
    | content, '}' :: _ => some content
    | _, _ => none
  | _, _ => none

/-- The slot groups, by their content. -/
def groupPattern : Pattern (List Char) where
  here? := groupContent?
  write content := '{' :: (content ++ ['}'])

/-! ### Templates -/

/-- A stretch of text, or the slot of a number. -/
inductive Template.Part where
  | fixed (text : String)
  | slot (index : Nat)
  deriving DecidableEq, Repr

/-- A template as fixed parts and slots. -/
structure Template where
  parts : List Template.Part
  /-- The alternatives of each slot, by its number. -/
  slots : List (List String)
  deriving DecidableEq, Repr

namespace Template

/-- The collected characters, latest first, as a fixed part, unless there are none. -/
def fixedOf : List Char → List Part
  | [] => []
  | collected => [.fixed (String.ofList collected.reverse)]

/-- The parts of pieces, with the slots numbered from `next` on; `collected` holds the plain
characters since the last slot, latest first. -/
def partsOf : List Char → Nat → List (Piece (List Char)) → List Part
  | collected, _, [] => fixedOf collected
  | collected, next, .plain character :: rest => partsOf (character :: collected) next rest
  | collected, next, .found _ :: rest =>
    fixedOf collected ++ .slot next :: partsOf [] (next + 1) rest

/-- The alternatives of the slot groups among pieces, in order. -/
def slotsOf (pieces : List (Piece (List Char))) : List (List String) :=
  pieces.filterMap fun
    | .plain _ => none
    | .found content => some ((splitOn '|' content).map String.ofList)

/-- The template of a text. -/
def parse (text : String) : Template :=
  let pieces := groupPattern.pieces text.toList
  ⟨partsOf [] 0 pieces, slotsOf pieces⟩

/-- The template as it is written: each slot as its alternatives between bars, in braces. -/
def print (template : Template) : String :=
  String.ofList <| template.parts.flatMap fun
    | .fixed text => text.toList
    | .slot index =>
      '{' :: (joinWith '|' ((template.slots[index]?.getD []).map String.toList) ++ ['}'])

/-- The phrase in which each slot is replaced by the choice of its number. -/
def fill (template : Template) (choice : List String) : String :=
  String.join <| template.parts.map fun
    | .fixed text => text
    | .slot index => choice[index]?.getD ""

end Template

/-! ### Phrases -/

/-- Every way to take one element of each list, the element of the first list varying slowest. -/
def selections {α : Type} : List (List α) → List (List α)
  | [] => [[]]
  | factor :: factors =>
    let rest := selections factors
    factor.flatMap fun element => rest.map (element :: ·)

/-- The phrases that a template stands for. -/
def Template.phrases (template : Template) : List String :=
  (selections template.slots).map template.fill

/-- The phrases of a template that is given as text. -/
def phrasesOf (text : String) : List String := (Template.parse text).phrases

/-- The phrases of several templates, in order. -/
def phrasesOfAll (texts : List String) : List String := texts.flatMap phrasesOf

end Phrasebook
