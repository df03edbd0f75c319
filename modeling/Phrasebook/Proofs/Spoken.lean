/-
**Reading an utterance takes the words back out of it.**

An utterance carries each word with the name of its entity, as in `{{two|n}}`, and a reader sees the
word alone. Nothing is escaped on the way: a word may be empty, have a bar in it, or be the lone
hyphen that stands for a request. The reader is not misled by it, because the last bar ends the
value and a name has no bar.

`readings` lists what a reader may see in the place of each reference of a phrase. What is seen of
the utterances of a phrase are the fillings of the phrase with these (`map_spokenIn_fillings`). So
the utterance of a number is read as the phrase with the readings that the digits of the number
choose, and with all else, stray braces included, as it was (`spokenText_utterancesOf`).
-/

import Phrasebook.Proofs.Numbering
import Phrasebook.Proofs.Phrase

namespace Phrasebook

open Text

/-- What a request is answered with: the words for the entity, or its name where none are listed. -/
def answers (catalog : Catalog) (language name : String) : List String :=
  match catalog.valuesIn? name language with
  | none => [name]
  | some values => choices values

/-- What a reader may see in the place of a reference: its name, if it has no value; the answers, if
it is a request; and otherwise its value. -/
def readings (catalog : Catalog) (language : String) (reference : Reference) : List (List Char) :=
  match reference.value with
  | none => [reference.name.toList]
  | some value =>
    if value = "-" then (answers catalog language reference.name).map String.toList
    else [value.toList]

/-- The phrase as a reader sees it, when the digits of a number choose the readings. -/
def reading? (catalog : Catalog) (language phrase : String) (number : Nat) : Option String :=
  let pieces := referencePattern.pieces phrase.toList
  let counts := optionCounts (readings catalog language) pieces
  (filling? (readings catalog language) pieces (digits counts number)).map String.ofList

section Readings

variable {catalog : Catalog} {language : String}

/-- A reference that is no request has the one reading. -/
theorem readings_of_ne {reference : Reference} (other : reference ≠ ⟨some "-", reference.name⟩) :
    readings catalog language reference = [reference.plain.toList] := by
  obtain ⟨_ | value, name⟩ := reference
  · rfl
  · have differs : value ≠ "-" := by
      rintro rfl
      exact other rfl
    simp [readings, differs, Reference.plain]

/-- A text that requests nothing is read in one way. -/
theorem fillings_readings_of_quiet {text : List Char} (quiet : requestsIn text = []) :
    fillings (readings catalog language) (referencePattern.pieces text) = [spokenIn text] := by
  have single : ∀ pieces : List (Piece Reference),
      (∀ name, .found ⟨some "-", name⟩ ∉ pieces) →
        fillings (readings catalog language) pieces = [pieces.flatMap Piece.spoken] := by
    intro pieces
    induction pieces with
    | nil => exact fun _ => rfl
    | cons piece pieces ih =>
      intro none
      have later := ih fun name inside => none name (List.mem_cons_of_mem _ inside)
      cases piece with
      | plain character =>
        rw [fillings, later]
        rfl
      | found reference =>
        have other : reference ≠ ⟨some "-", reference.name⟩ := fun same =>
          none reference.name (same ▸ List.mem_cons_self)
        rw [fillings, readings_of_ne other, later]
        rfl
  refine single _ fun name inside => ?_
  have asked := mem_requestsIn_iff.mpr inside
  rw [quiet] at asked
  cases asked

section PlainWords

variable (plain : catalog.PlainWords language)

include plain

/-- What a reader sees of the options for a request are its readings. -/
theorem map_spokenIn_requestOptions {name : String} (named : isName name.toList = true) :
    (requestOptions catalog language name).map spokenIn =
      readings catalog language ⟨some "-", name⟩ := by
  have asked : readings catalog language ⟨some "-", name⟩ =
      (answers catalog language name).map String.toList := by simp [readings]
  rw [asked, requestOptions, answers]
  cases found : catalog.valuesIn? name language with
  | none =>
    rw [List.map_singleton, spokenIn_reference (Reference.valid_bare named)]
    rfl
  | some values =>
    rw [List.map_map]
    refine List.map_congr_left fun word member => ?_
    exact spokenIn_reference (Reference.valid_annotated named (plain name values found word member))

/-- **A reader sees the readings of the phrase**, in the order of its utterances. -/
theorem map_spokenIn_fillings (text : List Char) :
    (fillings (requestOptions catalog language) (requestPattern.pieces text)).map spokenIn =
      fillings (readings catalog language) (referencePattern.pieces text) := by
  induction text using requests_induction with
  | quiet text quiet =>
    rw [requestPieces_of_quiet quiet, fillings_plain, List.map_singleton,
      fillings_readings_of_quiet quiet]
  | request front name rest quiet named ih =>
    -- The reader finds the request where the search for requests does.
    have cut : referencePattern.pieces (front ++ (Reference.mk (some "-") name).write ++ rest) =
        referencePattern.pieces front ++
          .found ⟨some "-", name⟩ :: referencePattern.pieces rest :=
      referencePattern_doubleBraced.pieces_append_write (request_valid named) front rest
    rw [cut, fillings_append, fillings_readings_of_quiet quiet, List.flatMap_singleton, fillings,
      ← map_spokenIn_requestOptions plain named, ← ih, requestPieces_between quiet named,
      fillings_map_plain, fillings, List.map_map, List.map_flatMap, List.map_flatMap,
      List.flatMap_map]
    refine List.flatMap_congr fun option listed => ?_
    obtain ⟨reference, rfl⟩ := exists_reference_of_mem_requestOptions listed
    rw [List.map_map, List.map_map, List.map_map]
    refine List.map_congr_left fun filling _ => ?_
    have parts := spokenIn_between front reference filling
    rw [List.append_assoc, List.append_assoc] at parts
    exact parts

/-- **Reading takes the references back out of the utterances.** A phrase has as many utterances as
there are ways to read it, and the utterance of a number is read as the phrase with each request
answered by the answer of that number. -/
theorem spokenText_utterancesOf (phrase : String) :
    (utterancesOf phrase language catalog).length =
        (optionCounts (readings catalog language) (referencePattern.pieces phrase.toList)).prod ∧
      ∀ number utterance, (utterancesOf phrase language catalog)[number]? = some utterance →
        reading? catalog language phrase number = some (spokenText utterance) := by
  have read := map_spokenIn_fillings plain phrase.toList
  have same : (fillings (requestOptions catalog language)
      (requestPattern.pieces phrase.toList)).length =
        (fillings (readings catalog language) (referencePattern.pieces phrase.toList)).length := by
    rw [← read, List.length_map]
  unfold utterancesOf
  rw [fillRequests_eq]
  refine ⟨by rw [List.length_map, same, length_fillings], fun number utterance taken => ?_⟩
  rw [List.getElem?_map] at taken
  obtain ⟨filled, here, rfl⟩ := Option.map_eq_some_iff.mp taken
  obtain ⟨small, _⟩ := List.getElem?_eq_some_iff.mp here
  have chosen := congrArg (·[number]?) read
  simp only [List.getElem?_map, here, Option.map_some] at chosen
  rw [getElem?_fillings _ (same ▸ small)] at chosen
  rw [reading?, ← chosen, spokenText_eq, String.toList_ofList]
  rfl

end PlainWords

end Readings

/-- Two requests for one entity, whose words are empty, have a bar in them and are a lone hyphen. -/
theorem awkward_words_read_back :
    let table : EntityTable := Dictionary.empty.insert "n"
      ⟨"T", some (Dictionary.empty.insert "en" [⟨"-", ["", "a|b"]⟩])⟩
    let phrase := "\x7b\x7b\x7b-|n\x7d\x7d\x7d \x7b\x7b-|n\x7d\x7d " ++
      "\x7b\x7bm\x7d\x7d \x7b\x7b|m\x7d\x7d \x7b\x7b-|k\x7d\x7d"
    let utterance := "\x7b\x7b\x7ba|b|n\x7d\x7d\x7d \x7b\x7b-|n\x7d\x7d " ++
      "\x7b\x7bm\x7d\x7d \x7b\x7b|m\x7d\x7d \x7b\x7bk\x7d\x7d"
    table.catalog.PlainWords "en" ∧
      (utterancesOf phrase "en" table.catalog)[5]? = some utterance ∧
      spokenText utterance = "\x7ba|b\x7d - m  k" := by
  intro table phrase utterance
  have plain : table.catalog.PlainWords "en" := by decide +kernel
  have taken : (utterancesOf phrase "en" table.catalog)[5]? = some utterance := by decide +kernel
  have read : reading? table.catalog "en" phrase 5 = some "\x7ba|b\x7d - m  k" := by
    decide +kernel
  have spoken := (spokenText_utterancesOf plain phrase).2 5 utterance taken
  exact ⟨plain, taken, Option.some.inj (spoken.symm.trans read)⟩

end Phrasebook
