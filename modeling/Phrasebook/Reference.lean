/-
**Entity references.**

A reference `{{name}}` or `{{value|name}}` marks a place in a text that belongs to an entity. The
name is made of word characters; the value is any text without braces, and the last bar ends it. A
request `{{-|name}}` is a reference whose value is a lone hyphen; it asks for the synonyms of the
entity.

Both are found by leftmost search, each with a pattern of its own: `referencePattern` and
`requestPattern`.
-/

import Phrasebook.Template
import Phrasebook.Text.Word

namespace Phrasebook

open Text

/-- A reference to an entity, with the text that stands for it where there is one. -/
structure Reference where
  value : Option String
  name : String
  deriving DecidableEq, Repr

namespace Reference

/-- What stands between the braces. -/
def content (reference : Reference) : List Char :=
  match reference.value with
  | none => reference.name.toList
  | some value => value.toList ++ '|' :: reference.name.toList

/-- The reference as it is written. -/
def write (reference : Reference) : List Char :=
  '{' :: '{' :: (reference.content ++ ['}', '}'])

/-- What a reader sees: the value, or the name where there is none. -/
def plain (reference : Reference) : String := reference.value.getD reference.name

end Reference

/-- A text parted at its last bar, if it has one. -/
def splitLastBar : List Char → Option (List Char) × List Char
  | [] => (none, [])
  | character :: rest =>
    match splitLastBar rest with
    | (some value, name) => (some (character :: value), name)
    | (none, name) => if character = '|' then (some [], name) else (none, character :: name)

/-- The reference with the given content. -/
def Reference.ofContent? (content : List Char) : Option Reference :=
  let (value, name) := splitLastBar content
  if isName name then some ⟨value.map String.ofList, String.ofList name⟩ else none

/-- The reference that the text begins with. -/
def Reference.here? (text : List Char) : Option Reference :=
  match text with
  | '{' :: '{' :: rest =>
    match rest.dropWhile isPlain with
    | '}' :: '}' :: _ => Reference.ofContent? (rest.takeWhile isPlain)
    | _ => none
  | _ => none

/-- The references, wherever they stand. -/
def referencePattern : Pattern Reference where
  here? _ text := Reference.here? text
  write := Reference.write

/-- The name in the synonym request that the text begins with. -/
def requestedName? (text : List Char) : Option String :=
  match text with
  | '{' :: '{' :: '-' :: '|' :: rest =>
    match rest.takeWhile isWord, rest.dropWhile isWord with
    | [], _ => none
    | name, '}' :: '}' :: _ => some (String.ofList name)
    | _, _ => none
  | _ => none

/-- The synonym requests, by the name that they ask for. -/
def requestPattern : Pattern String where
  here? _ text := requestedName? text
  write name := '{' :: '{' :: '-' :: '|' :: (name.toList ++ ['}', '}'])

/-! ### What a text refers to -/

/-- The references of a text, from left to right. -/
def references (text : String) : List Reference :=
  (referencePattern.pieces text.toList).filterMap fun
    | .plain _ => none
    | .found reference => some reference

/-- The distinct entity names that the texts refer to, in the order of their first appearance. -/
def mentionedNames (texts : List String) : List String :=
  (texts.flatMap fun text => (references text).map (·.name)).eraseDups

/-- The text with every reference replaced by what a reader sees of it. -/
def spokenText (utterance : String) : String :=
  String.ofList <| (referencePattern.pieces utterance.toList).flatMap fun
    | .plain character => [character]
    | .found reference => reference.plain.toList

/-- Whether a brace is left outside the references. -/
def hasStrayBrace (utterance : String) : Bool :=
  (referencePattern.pieces utterance.toList).any fun
    | .plain character => !isPlain character
    | .found _ => false

end Phrasebook
