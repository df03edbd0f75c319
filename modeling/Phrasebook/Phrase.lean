/-
**From phrases to utterances.**

A phrase is what a template stands for once its slots are chosen. Where it requests the synonyms of
an entity, `utterancesOf` writes each word for the entity's values into it, as a reference with
that word as its value; a request that the catalog has no values for becomes a bare reference. All
else in the phrase stays as it is.
-/

import Phrasebook.Entity
import Phrasebook.Reference

namespace Phrasebook

open Text

/-- The texts of a phrase cut at its requests, the words of the first request varying slowest. -/
def fillRequests (catalog : Catalog) (language : String) : List (Piece String) → List (List Char)
  | [] => [[]]
  | .plain character :: pieces =>
    (fillRequests catalog language pieces).map (character :: ·)
  | .found name :: pieces =>
    let rest := fillRequests catalog language pieces
    match catalog.valuesIn? name language with
    | none => rest.map ((Reference.mk none name).write ++ ·)
    | some values =>
      (choices values).flatMap fun choice => rest.map ((Reference.mk (some choice) name).write ++ ·)

/-- The utterances of a phrase. -/
def utterancesOf (phrase language : String) (catalog : Catalog) : List String :=
  (fillRequests catalog language (requestPattern.pieces phrase.toList)).map String.ofList

/-- What templates come to. -/
structure Expansion where
  /-- The texts with slots chosen and requests still in place. -/
  phrases : List String
  utterances : List String
  deriving DecidableEq, Repr

/-- The entities that the templates refer to. -/
def Expansion.names (expansion : Expansion) : List String := mentionedNames expansion.phrases

/-- Expands the templates of an intent. -/
def Expansion.ofTemplates (templates : List String) (language : String) (catalog : Catalog) :
    Expansion :=
  let phrases := phrasesOfAll templates
  ⟨phrases, phrases.flatMap fun phrase => utterancesOf phrase language catalog⟩

end Phrasebook
