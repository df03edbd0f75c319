/-
**The readers of a text go by the searches.**

Mentions are collected, references are replaced by what a reader sees of them, stray braces are
looked for and requests are answered in what the three searches find (`GoesBySearches`). As these
see the same references (`ScansAgree`), what one reader goes by is known to the others: the names
that an expansion looks up are among those that the phrase mentions, and of the references that it
writes into an utterance, a reader of the utterance finds exactly those whose word has no brace
(`scanners_see_the_same`).
-/

import Phrasebook.Proofs.Scanners

namespace Phrasebook

open Text

/-! ### Replacing what is found -/

/-- The text with the finds of the expression replaced. -/
def replaced (expression : Expression) (new : Match → List Char) (text : List Char) : List Char :=
  rewrite text 0 ((expression.found text).map fun find => ⟨find.1, find.2.taken.length, new find.2⟩)

/-- The piece with an occurrence replaced. -/
def Text.Piece.replacedBy {α : Type} (new : α → List Char) : Piece α → List Char
  | .plain character => [character]
  | .found occurrence => new occurrence

theorem mem_occurrences {α : Type} {occurrence : α} {pieces : List (Piece α)} :
    occurrence ∈ occurrences pieces ↔ .found occurrence ∈ pieces := by
  rw [occurrences, List.mem_filterMap]
  constructor
  · rintro ⟨_ | other, member, same⟩
    · cases same
    · cases same
      exact member
  · exact fun member => ⟨_, member, rfl⟩

theorem filled_map_occurrences {α : Type} (new : α → List Char) (pieces : List (Piece α)) :
    filled pieces ((occurrences pieces).map new) = pieces.flatMap (Piece.replacedBy new) := by
  induction pieces with
  | nil => rfl
  | cons piece pieces ih =>
    cases piece with
    | plain character =>
      rw [occurrences_plain, filled, ih]
      rfl
    | found occurrence =>
      rw [occurrences_found, List.map_cons, filled, List.headD_cons, List.tail_cons, ih]
      rfl

/-- The finds of the annotations are the references, each replaced in its place. -/
theorem replaced_annotated (new : Match → List Char) (text : List Char) :
    replaced annotationExpression new text =
      (referencePattern.pieces text).flatMap (Piece.replacedBy (new ∘ matchOfAnnotated)) := by
  have faithful := referencePattern_doubleBraced.faithful
  have enough : ((occurrences (referencePattern.pieces text)).map
      (new ∘ matchOfAnnotated)).length = (referencePattern.places text).length := by
    rw [← Pattern.map_snd_places, List.length_map, List.length_map]
  rw [← filled_map_occurrences, ← Pattern.rewrite_places faithful enough, replaced,
    found_annotated, ← Pattern.map_snd_places, Pattern.edits, List.map_map, List.map_map,
    List.zipWith_map_right, List.zipWith_self]
  rfl

/-! ### The readers -/

/-- The names that a search reports of a text, with the group of the number for the names. -/
def namesFound (expression : Expression) (number : Nat) (text : String) : List String :=
  (sightings expression number text.toList).filterMap fun sighting =>
    sighting.name.map String.ofList

/-- What a reader sees of a match: its value, or its name where there is none. -/
def shown (found : Match) : List Char := (found.group? 1).getD ((found.group? 2).getD [])

theorem shown_matchOfAnnotated (reference : Reference) :
    shown (matchOfAnnotated reference) = reference.plain.toList := by
  rw [shown, matchOfAnnotated_value, matchOfAnnotated_name]
  obtain ⟨_ | value, name⟩ := reference <;> rfl

theorem names_occurrences (text : List Char) :
    namesIn text = (occurrences (referencePattern.pieces text)).map (·.name) := by
  rw [namesIn, occurrences, List.map_filterMap]
  refine List.filterMap_congr fun piece _ => ?_
  cases piece <;> rfl

theorem namesFound_mention (text : String) :
    namesFound mentionExpression 1 text = namesIn text.toList := by
  rw [names_occurrences, ← Pattern.map_snd_places, namesFound, sightings_mention,
    List.filterMap_map, List.map_map, ← List.filterMap_eq_map]
  refine List.filterMap_congr fun found _ => ?_
  exact congrArg some String.ofList_toList

theorem namesFound_request (text : String) :
    namesFound requestExpression 1 text = (requestPattern.places text.toList).map Prod.snd := by
  rw [namesFound, sightings_request, List.filterMap_map, ← List.filterMap_eq_map]
  refine List.filterMap_congr fun found _ => ?_
  exact congrArg some String.ofList_toList

/-- Mentions, readings, stray braces and utterances go by what the searches find. -/
structure GoesBySearches (text : String) : Prop where
  mentioned : (references text).map (·.name) = namesFound mentionExpression 1 text
  spoken : spokenText text = String.ofList (replaced annotationExpression shown text.toList)
  /-- A brace is stray if it is left when the annotations are taken out. -/
  stray : hasStrayBrace text = true ↔
    '{' ∈ replaced annotationExpression (fun _ => []) text.toList ∨
      '}' ∈ replaced annotationExpression (fun _ => []) text.toList
  /-- The requests that are found are written over, with what the catalog has for their names. -/
  utterances : ∀ language catalog, utterancesOf text language catalog =
    (selections (wordLists catalog language (namesFound requestExpression 1 text))).map fun words =>
      String.ofList (rewrite text.toList 0 (List.zipWith
        (fun request new => ⟨request.place, request.stretch.length, new⟩)
        (sightings requestExpression 1 text.toList)
        (answersTo catalog language (namesFound requestExpression 1 text) words)))

theorem mentionedNames_eq_found (texts : List String) :
    mentionedNames texts = (texts.flatMap (namesFound mentionExpression 1)).eraseDups := by
  simp only [mentionedNames, names_references]
  rw [funext namesFound_mention]

/-- A name that is found as requested in one of the texts is mentioned by them. -/
theorem mem_mentionedNames_of_found {texts : List String} {text name : String}
    (listed : text ∈ texts) (found : name ∈ namesFound requestExpression 1 text) :
    name ∈ mentionedNames texts := by
  rw [namesFound_request, Pattern.map_snd_places, mem_occurrences] at found
  exact mem_mentionedNames.mpr ⟨text, listed, Requests.mem_namesIn found⟩

theorem spokenText_eq_replaced (text : String) :
    spokenText text = String.ofList (replaced annotationExpression shown text.toList) := by
  rw [spokenText_eq, spokenIn, replaced_annotated]
  refine congrArg String.ofList (List.flatMap_congr fun piece _ => ?_)
  cases piece with
  | plain character => rfl
  | found reference => exact (shown_matchOfAnnotated reference).symm

theorem isStray_iff_replacedBy {piece : Piece Reference} : piece.isStray = true ↔
    '{' ∈ piece.replacedBy (fun _ => []) ∨ '}' ∈ piece.replacedBy (fun _ => []) := by
  cases piece with
  | plain character =>
    rw [Piece.isStray, Bool.not_eq_true', ← Bool.not_eq_true, isPlain_iff, not_and_or, not_not,
      not_not, Piece.replacedBy, List.mem_singleton, List.mem_singleton, eq_comm,
      eq_comm (a := character)]
  | found reference => simp [Piece.isStray, Piece.replacedBy]

theorem hasStrayBrace_iff_replaced (text : String) : hasStrayBrace text = true ↔
    '{' ∈ replaced annotationExpression (fun _ => []) text.toList ∨
      '}' ∈ replaced annotationExpression (fun _ => []) text.toList := by
  have nothing : (fun _ => []) ∘ matchOfAnnotated = fun _ => ([] : List Char) := rfl
  rw [hasStrayBrace_eq, strayIn, List.any_eq_true, replaced_annotated, nothing]
  simp only [List.mem_flatMap, isStray_iff_replacedBy, and_or_left, exists_or]

theorem utterancesOf_eq_found (text language : String) (catalog : Catalog) :
    utterancesOf text language catalog =
      (selections (wordLists catalog language (namesFound requestExpression 1 text))).map
        fun words => String.ofList (rewrite text.toList 0 (List.zipWith
          (fun request new => ⟨request.place, request.stretch.length, new⟩)
          (sightings requestExpression 1 text.toList)
          (answersTo catalog language (namesFound requestExpression 1 text) words))) := by
  rw [utterancesOf_eq_map_selections, namesFound_request, sightings_request]
  refine List.map_congr_left fun words _ => ?_
  rw [List.zipWith_map_left]
  rfl

theorem goesBySearches (text : String) : GoesBySearches text where
  mentioned := (names_references text).trans (namesFound_mention text).symm
  spoken := spokenText_eq_replaced text
  stray := hasStrayBrace_iff_replaced text
  utterances _ _ := utterancesOf_eq_found ..

/-! ### What an expansion writes -/

/-- The reference may be written for a request of its entity: a bare one if the catalog has no
values for the entity, and else one with a word for it. -/
def Catalog.Offers (catalog : Catalog) (language : String) (reference : Reference) : Prop :=
  match reference.value with
  | none => catalog.valuesIn? reference.name language = none
  | some word => ∃ values, catalog.valuesIn? reference.name language = some values ∧
    word ∈ choices values

/-- In the utterance the reference was written for the request, between what was made of the text
before the request and of the text behind it. -/
structure WrittenFor (catalog : Catalog) (language phrase utterance : String) (request : Sighting)
    (front : String) (reference : Reference) (behind : String) : Prop where
  whole : utterance.toList = front.toList ++ reference.write ++ behind.toList
  name : request.name = some reference.name.toList
  offered : catalog.Offers language reference
  before : front ∈
    utterancesOf (String.ofList (phrase.toList.take request.place)) language catalog
  after : behind ∈ utterancesOf
    (String.ofList (phrase.toList.drop (request.place + request.stretch.length))) language catalog

section Written

variable {catalog : Catalog} {language phrase utterance : String}

theorem exists_offered {name : String} {option : List Char}
    (listed : option ∈ requestOptions catalog language name) :
    ∃ reference : Reference, reference.name = name ∧ catalog.Offers language reference ∧
      option = reference.write := by
  rcases mem_requestOptions.mp listed with ⟨missing, same⟩ | ⟨values, word, found, member, same⟩
  · exact ⟨⟨none, name⟩, rfl, missing, same⟩
  · exact ⟨⟨some word, name⟩, rfl, ⟨values, found, member⟩, same⟩

theorem mem_utterancesOf_ofList {text filling : List Char} :
    String.ofList filling ∈ utterancesOf (String.ofList text) language catalog ↔
      filling ∈ fillings (requestOptions catalog language) (requestPattern.pieces text) := by
  rw [mem_utterancesOf, String.toList_ofList, String.toList_ofList]

/-- Each request of the phrase is written over in the utterance. -/
theorem exists_writtenFor (member : utterance ∈ utterancesOf phrase language catalog)
    {request : Sighting} (found : request ∈ sightings requestExpression 1 phrase.toList) :
    ∃ front reference behind,
      WrittenFor catalog language phrase utterance request front reference behind := by
  rw [sightings_request, List.mem_map] at found
  obtain ⟨⟨place, name⟩, placed, rfl⟩ := found
  obtain ⟨named, start, rest, split, rfl⟩ := requestPattern_doubleBraced.mem_places_iff.mp placed
  have filled := mem_utterancesOf.mp member
  rw [split, requestPattern_doubleBraced.pieces_append_write named, fillings_append,
    List.mem_flatMap] at filled
  obtain ⟨front, before, filled⟩ := filled
  obtain ⟨_, later, whole⟩ := List.mem_map.mp filled
  obtain ⟨option, listed, behind, after, rfl⟩ := mem_fillings_found.mp later
  obtain ⟨reference, rfl, offered, rfl⟩ := exists_offered listed
  refine ⟨String.ofList front, reference, String.ofList behind, ?_, rfl, offered, ?_, ?_⟩
  · rw [← whole, String.toList_ofList, String.toList_ofList, List.append_assoc]
  · rw [mem_utterancesOf_ofList, split, List.append_assoc]
    simpa [sightingOfReference] using before
  · have short : (sightingOfReference (start.length, ⟨some "-", reference.name⟩)).place +
        (sightingOfReference (start.length, ⟨some "-", reference.name⟩)).stretch.length =
          (start ++ requestPattern.write reference.name).length :=
      List.length_append.symm
    rw [mem_utterancesOf_ofList, split, short, List.drop_left]
    exact after

/-- What is written is a reference, unless its word has a brace. -/
theorem isContent_iff_braceFree {reference : Reference}
    (named : isName reference.name.toList = true) :
    IsContent reference.content ↔ ∀ word ∈ reference.value, BraceFree word.toList := by
  constructor
  · rintro ⟨free, _⟩ word annotated
    rw [Reference.content, Option.mem_def.mp annotated] at free
    exact (braceFree_append.mp free).1
  · exact fun free => Reference.Valid.isContent ⟨named, free⟩

theorem WrittenFor.isName {request : Sighting} {front behind : String} {reference : Reference}
    (written : WrittenFor catalog language phrase utterance request front reference behind)
    (found : request ∈ sightings requestExpression 1 phrase.toList) :
    isName reference.name.toList = true := by
  rw [sightings_request, List.mem_map] at found
  obtain ⟨⟨place, name⟩, placed, rfl⟩ := found
  have same : name.toList = reference.name.toList := Option.some.inj written.name
  exact same ▸ (requestPattern_doubleBraced.mem_places_iff.mp placed).1

/-- What is written is found in the utterance exactly if its word has no brace. -/
theorem WrittenFor.mem_sightings_iff {request : Sighting} {front behind : String}
    {reference : Reference}
    (written : WrittenFor catalog language phrase utterance request front reference behind)
    (found : request ∈ sightings requestExpression 1 phrase.toList) :
    ⟨front.toList.length, reference.write, some reference.name.toList⟩ ∈
        sightings annotationExpression 2 utterance.toList ↔
      ∀ word ∈ reference.value, BraceFree word.toList := by
  have plain := isContent_iff_braceFree (written.isName found)
  rw [← (scansAgree _).same, (scansAgree _).exact]
  constructor
  · rintro ⟨content, isContent, stretch, _, _⟩
    have same : reference.content = content := by
      simpa [Reference.write, doubleBraced] using stretch
    exact plain.mp (same ▸ isContent)
  · intro free
    have valid : reference.Valid := ⟨written.isName found, free⟩
    exact ⟨reference.content, plain.mpr free, rfl, ⟨_, _, written.whole, rfl⟩,
      congrArg some valid.behindLastBar_content.symm⟩

theorem WrittenFor.spokenText_of_valid {request : Sighting} {front behind : String}
    {reference : Reference}
    (written : WrittenFor catalog language phrase utterance request front reference behind)
    (valid : reference.Valid) :
    spokenText utterance = spokenText front ++ reference.plain ++ spokenText behind := by
  rw [spokenText_eq, written.whole, spokenIn_between, spokenIn_reference valid,
    String.ofList_append, String.ofList_append, String.ofList_toList]
  rfl

end Written

/-- **The searches see the same references**, and the readers of a text go by what they find. So the
names that are looked up for a phrase are mentioned by it. Something is written for each request of
it, and whatever that is, a reader of the utterance finds it exactly if the word in it has no
brace, and takes it out then. -/
theorem scanners_see_the_same (catalog : Catalog) (language : String) :
    (∀ text, ScansAgree text) ∧
      (∀ text, GoesBySearches text) ∧
      (∀ texts, mentionedNames texts =
        (texts.flatMap (namesFound mentionExpression 1)).eraseDups) ∧
      (∀ phrases, ∀ phrase ∈ phrases, ∀ name ∈ namesFound requestExpression 1 phrase,
        name ∈ mentionedNames phrases) ∧
      ∀ phrase, ∀ utterance ∈ utterancesOf phrase language catalog,
        ∀ request ∈ sightings requestExpression 1 phrase.toList,
          (∃ front reference behind,
            WrittenFor catalog language phrase utterance request front reference behind) ∧
          ∀ front reference behind,
            WrittenFor catalog language phrase utterance request front reference behind →
              (⟨front.toList.length, reference.write, some reference.name.toList⟩ ∈
                  sightings annotationExpression 2 utterance.toList ↔
                ∀ word ∈ reference.value, BraceFree word.toList) ∧
              ((∀ word ∈ reference.value, BraceFree word.toList) → spokenText utterance =
                spokenText front ++ reference.plain ++ spokenText behind) := by
  refine ⟨scansAgree, goesBySearches, mentionedNames_eq_found,
    fun _ _ listed _ => mem_mentionedNames_of_found listed, ?_⟩
  intro phrase utterance member request found
  refine ⟨exists_writtenFor member found, fun front reference behind written => ?_⟩
  exact ⟨written.mem_sightings_iff found, fun free =>
    written.spokenText_of_valid ⟨written.isName found, free⟩⟩

/-- A request inside a third pair of braces, answered with a word that has a bar in it. -/
theorem bar_in_braces_is_taken_out :
    let table : EntityTable := Dictionary.empty.insert "n"
      ⟨"T", some (Dictionary.empty.insert "en" [⟨"-", ["a|b"]⟩])⟩
    let phrase := "\x7b\x7b\x7b-|n\x7d\x7d\x7d \x7b\x7b|m\x7d\x7d"
    let utterance := "\x7b\x7b\x7ba|b|n\x7d\x7d\x7d \x7b\x7b|m\x7d\x7d"
    let request : Sighting := ⟨1, "\x7b\x7b-|n\x7d\x7d".toList, some ['n']⟩
    let reference : Reference := ⟨some "a|b", "n"⟩
    let behind := "\x7d \x7b\x7b|m\x7d\x7d"
    utterance ∈ utterancesOf phrase "en" table.catalog ∧
      request ∈ sightings requestExpression 1 phrase.toList ∧ "n" ∈ mentionedNames [phrase] ∧
      WrittenFor table.catalog "en" phrase utterance request "\x7b" reference behind ∧
      ⟨"\x7b".toList.length, reference.write, some reference.name.toList⟩ ∈
        sightings annotationExpression 2 utterance.toList ∧
      spokenText utterance = "\x7ba|b\x7d " := by
  intro table phrase utterance request reference behind
  have member : utterance ∈ utterancesOf phrase "en" table.catalog := by decide +kernel
  have found : request ∈ sightings requestExpression 1 phrase.toList := by decide +kernel
  have named : "n" ∈ namesFound requestExpression 1 phrase := by decide +kernel
  have written : WrittenFor table.catalog "en" phrase utterance request "\x7b" reference behind :=
    { whole := by decide +kernel
      name := by decide
      offered := ⟨[⟨"-", ["a|b"]⟩], by decide +kernel, by decide +kernel⟩
      before := by decide +kernel
      after := by decide +kernel }
  have free : ∀ word ∈ reference.value, BraceFree word.toList := by
    rintro _ ⟨⟩
    decide
  obtain ⟨_, _, _, mentioned, writes⟩ := scanners_see_the_same table.catalog "en"
  obtain ⟨isFound, taken⟩ :=
    (writes phrase utterance member request found).2 _ reference behind written
  refine ⟨member, found, mentioned [phrase] phrase List.mem_cons_self "n" named, written,
    isFound.mpr free, ?_⟩
  rw [taken free]
  decide +kernel

/-- **A brace in a word hides the reference**: what is written is not found, and left as it is. -/
theorem brace_in_word_is_left :
    let table : EntityTable := Dictionary.empty.insert "n"
      ⟨"T", some (Dictionary.empty.insert "en" [⟨"a\x7d", []⟩])⟩
    let phrase := "\x7b\x7b-|n\x7d\x7d"
    let utterance := "\x7b\x7ba\x7d|n\x7d\x7d"
    let request : Sighting := ⟨0, "\x7b\x7b-|n\x7d\x7d".toList, some ['n']⟩
    utterancesOf phrase "en" table.catalog = [utterance] ∧
      request ∈ sightings requestExpression 1 phrase.toList ∧
      WrittenFor table.catalog "en" phrase utterance request "" ⟨some "a\x7d", "n"⟩ "" ∧
      sightings annotationExpression 2 utterance.toList = [] ∧
      spokenText utterance = utterance ∧ hasStrayBrace utterance = true := by
  intro table phrase utterance request
  refine ⟨by decide +kernel, by decide +kernel, ?_, by decide +kernel, by decide +kernel,
    by decide +kernel⟩
  exact
    { whole := by decide +kernel
      name := by decide
      offered := ⟨[⟨"a\x7d", []⟩], by decide +kernel, by decide +kernel⟩
      before := by decide +kernel
      after := by decide +kernel }

end Phrasebook
