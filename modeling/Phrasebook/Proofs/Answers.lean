/-
**The utterances of a phrase, by its requests.**

A request is told by its letters alone (`RequestAt`), and the search finds every one
(`mem_places_request_iff`). Only those whose entity has values in the language are answered with
words; the others become bare references and add nothing to the count.

`utterancesOf_by_number` defines the expansion anew from there: a phrase has as many utterances as
the numbers of words multiply to, and the utterance of a number is the phrase with each request
written as its answer, where the words are those that the digits of the number choose. Two requests
for the same entity have a digit each.
-/

import Phrasebook.Proofs.Phrase
import Phrasebook.Proofs.Selections

namespace Phrasebook

open Text

/-- A request for the words of the entity begins at the place. -/
def RequestAt (text : List Char) (place : Nat) (name : String) : Prop :=
  ∃ front behind, text = front ++ '{' :: '{' :: '-' :: '|' :: (name.toList ++ '}' :: '}' :: behind) ∧
    front.length = place ∧ isName name.toList = true

theorem mem_places_request_iff {text : List Char} {place : Nat} {name : String} :
    (place, name) ∈ requestPattern.places text ↔ RequestAt text place name := by
  have braced := requestPattern_doubleBraced
  have written (behind : List Char) : requestPattern.write name ++ behind =
      '{' :: '{' :: '-' :: '|' :: (name.toList ++ '}' :: '}' :: behind) := by
    simp [requestPattern]
  rw [Pattern.mem_places_iff braced.faithful braced.exclusive]
  constructor
  · rintro ⟨front, rest, rfl, counted, found⟩
    obtain ⟨named, behind, rfl⟩ := braced.here_iff.mp found
    exact ⟨front, behind, by rw [written], counted, named⟩
  · rintro ⟨front, behind, rfl, counted, named⟩
    refine ⟨front, _, rfl, counted, braced.here_iff.mpr ⟨named, behind, written behind⟩⟩

theorem listsPlaces_request (text : List Char) :
    ListsPlaces (RequestAt text) (requestPattern.places text) where
  ordered := Pattern.pairwise_places requestPattern_doubleBraced.faithful text
  exact _ _ := mem_places_request_iff

section Answers

variable (catalog : Catalog) (language : String)

/-- The words for those of the names that have values in the language. -/
def wordLists (names : List String) : List (List String) :=
  names.filterMap fun name => (catalog.valuesIn? name language).map choices

/-- What is written for requests: a bare reference where the name has no values, and the next of the
words with the name where it has. -/
def answersTo : List String → List String → List (List Char)
  | [], _ => []
  | name :: names, words =>
    match catalog.valuesIn? name language with
    | none => (Reference.mk none name).write :: answersTo names words
    | some _ => (Reference.mk (some (words.headD "")) name).write :: answersTo names words.tail

theorem length_answersTo (names words : List String) :
    (answersTo catalog language names words).length = names.length := by
  induction names generalizing words with
  | nil => rfl
  | cons name names ih =>
    rw [answersTo]
    split <;> rw [List.length_cons, List.length_cons, ih]

theorem wordLists_cons (name : String) (names : List String) :
    wordLists catalog language (name :: names) =
      ((catalog.valuesIn? name language).map choices).toList ++
        wordLists catalog language names := by
  rw [wordLists, List.filterMap_cons]
  cases catalog.valuesIn? name language <;> rfl

/-- To fill the requests is to select a word for each of those that are answered with words. -/
theorem fillRequests_eq_map_selections (pieces : List (Piece String)) :
    fillRequests catalog language pieces =
      (selections (wordLists catalog language (occurrences pieces))).map fun words =>
        filled pieces (answersTo catalog language (occurrences pieces) words) := by
  induction pieces with
  | nil => rfl
  | cons piece pieces ih =>
    cases piece with
    | plain character =>
      rw [fillRequests, ih, occurrences_plain, List.map_map]
      rfl
    | found name =>
      rw [fillRequests, ih, occurrences_found, wordLists_cons]
      cases listed : catalog.valuesIn? name language with
      | none =>
        rw [List.map_map]
        refine List.map_congr_left fun words _ => ?_
        simp only [answersTo, listed]
        rfl
      | some values =>
        rw [Option.map_some, Option.toList_some, List.singleton_append, selections,
          List.map_flatMap]
        refine congrArg (List.flatMap · _) (funext fun word => ?_)
        rw [List.map_map, List.map_map]
        refine List.map_congr_left fun words _ => ?_
        simp only [Function.comp_apply, answersTo, listed]
        rfl

/-- The utterances select a word for each request that has any, and put the answers in the places of
the requests. -/
theorem utterancesOf_eq_map_selections (phrase : String) :
    utterancesOf phrase language catalog =
      (selections (wordLists catalog language
        ((requestPattern.places phrase.toList).map Prod.snd))).map fun words =>
          String.ofList (rewrite phrase.toList 0 (requestPattern.edits
            (requestPattern.places phrase.toList)
            (answersTo catalog language ((requestPattern.places phrase.toList).map Prod.snd)
              words))) := by
  rw [utterancesOf, fillRequests_eq_map_selections, Pattern.map_snd_places, List.map_map]
  refine List.map_congr_left fun words _ => ?_
  have enough : (answersTo catalog language
      (occurrences (requestPattern.pieces phrase.toList)) words).length =
        (requestPattern.places phrase.toList).length := by
    rw [length_answersTo, ← Pattern.map_snd_places, List.length_map]
  rw [Pattern.rewrite_places requestPattern_doubleBraced.faithful enough]
  rfl

/-- **Utterances by their number.** Let `requests` be all requests of the phrase, from left to right.
Then the phrase has as many utterances as the numbers of words multiply to, over the requests whose
entity has values in the language; and the utterance of a number is the phrase with each of these
requests written with the word that its digit of the number chooses, the first digit being the most
significant, each other request as a bare reference, and all else as it is. -/
theorem utterancesOf_by_number (phrase : String) :
    ∃ requests, ListsPlaces (RequestAt phrase.toList) requests ∧
      let names := requests.map Prod.snd
      let sizes := (wordLists catalog language names).map List.length
      (utterancesOf phrase language catalog).length = sizes.prod ∧
        ∀ number < sizes.prod, ∃ words,
          chosen? (wordLists catalog language names) (digits sizes number) = some words ∧
            (utterancesOf phrase language catalog)[number]? = some
              (String.ofList (rewrite phrase.toList 0
                (requestPattern.edits requests (answersTo catalog language names words)))) := by
  have utterances := utterancesOf_eq_map_selections catalog language phrase
  refine ⟨requestPattern.places phrase.toList, listsPlaces_request phrase.toList, ?_, ?_⟩
  · rw [utterances, List.length_map, length_selections]
  · intro number small
    obtain ⟨words, _, chosen, taken⟩ := exists_chosen small
    refine ⟨words, chosen, ?_⟩
    rw [utterances, List.getElem?_map, taken]
    rfl

end Answers

end Phrasebook
