/-
**Phrases and the utterances made of them.**

`mem_utterancesOf` describes the utterances of any phrase by its pieces: each request is replaced by
one of its `requestOptions`, and all else stays as it is. `requests_induction` goes from request to
request through a text, and `utterancesOf_induction` through a phrase and an utterance of it at
once. `requestsIn` is what any text requests: the names to which it refers with a lone hyphen for
the value (`mem_requestsIn_iff`).

Every option is some text between double braces, so the search for references reads it by itself,
whatever stray braces the phrase has around it. When the words of the catalog have no braces, the
utterances of a phrase refer to the same names as the phrase, in the same order, and have a stray
brace exactly if the phrase has one (`same_reading_of_mem_utterancesOf`).
-/

import Phrasebook.Phrase
import Phrasebook.Proofs.Template

namespace Phrasebook

open Text

/-! ### Utterances are fillings -/

/-- What may be written in the place of a request. -/
def requestOptions (catalog : Catalog) (language name : String) : List (List Char) :=
  match catalog.valuesIn? name language with
  | none => [(Reference.mk none name).write]
  | some values => (choices values).map fun word => (Reference.mk (some word) name).write

theorem fillRequests_eq (catalog : Catalog) (language : String) (pieces : List (Piece String)) :
    fillRequests catalog language pieces = fillings (requestOptions catalog language) pieces := by
  induction pieces with
  | nil => rfl
  | cons piece pieces ih =>
    cases piece with
    | plain character => rw [fillRequests, fillings, ih]
    | found name =>
      rw [fillRequests, fillings, requestOptions, ih]
      cases catalog.valuesIn? name language with
      | none => simp
      | some values => simp [List.flatMap_map]

theorem mem_utterancesOf {phrase language utterance : String} {catalog : Catalog} :
    utterance ∈ utterancesOf phrase language catalog ↔
      utterance.toList ∈
        fillings (requestOptions catalog language) (requestPattern.pieces phrase.toList) := by
  rw [utterancesOf, fillRequests_eq, List.mem_map]
  constructor
  · rintro ⟨characters, member, rfl⟩
    rwa [String.toList_ofList]
  · exact fun member => ⟨_, member, String.ofList_toList⟩

/-- An option is a reference to the entity that the request names: a bare one, or one with a word
for the entity. -/
theorem mem_requestOptions {catalog : Catalog} {language name : String} {option : List Char} :
    option ∈ requestOptions catalog language name ↔
      (catalog.valuesIn? name language = none ∧ option = (Reference.mk none name).write) ∨
        ∃ values word, catalog.valuesIn? name language = some values ∧ word ∈ choices values ∧
          option = (Reference.mk (some word) name).write := by
  rw [requestOptions]
  split
  next missing => simp [missing]
  next values listed => simp [listed, eq_comm]

/-- The requests of a phrase spell it together with the characters between them. -/
theorem text_requests (characters : List Char) :
    requestPattern.text (requestPattern.pieces characters) = characters :=
  Pattern.text_pieces requestPattern_doubleBraced.faithful characters

theorem request_valid {name : String} (named : isName name.toList = true) :
    (Reference.mk (some "-") name).Valid :=
  Reference.valid_annotated named (by decide +kernel)

/-- The phrase requests the words for the entity. -/
def Requests (phrase name : String) : Prop := .found name ∈ requestPattern.pieces phrase.toList

theorem Requests.isName {phrase name : String} (requests : Requests phrase name) :
    isName name.toList = true :=
  requestPattern_doubleBraced.isOccurrence requests

/-- An option is written as a reference, though it may not be found as one. -/
theorem exists_reference_of_mem_requestOptions {catalog : Catalog} {language name : String}
    {option : List Char} (listed : option ∈ requestOptions catalog language name) :
    ∃ reference : Reference, option = reference.write := by
  rcases mem_requestOptions.mp listed with ⟨_, same⟩ | ⟨_, word, _, _, same⟩
  · exact ⟨⟨none, name⟩, same⟩
  · exact ⟨⟨some word, name⟩, same⟩

/-! ### What a text requests -/

/-- The name that the piece requests. -/
def Text.Piece.request? : Piece String → Option String
  | .plain _ => none
  | .found name => some name

/-- The names that the text requests, from left to right and with repeats. -/
def requestsIn (characters : List Char) : List String :=
  (requestPattern.pieces characters).filterMap Piece.request?

theorem mem_requestsIn {characters : List Char} {name : String} :
    name ∈ requestsIn characters ↔ .found name ∈ requestPattern.pieces characters := by
  rw [requestsIn, List.mem_filterMap]
  constructor
  · rintro ⟨_ | requested, member, shown⟩
    · cases shown
    · exact Option.some.inj shown ▸ member
  · exact fun member => ⟨_, member, rfl⟩

theorem requests_iff {phrase name : String} :
    Requests phrase name ↔ name ∈ requestsIn phrase.toList := mem_requestsIn.symm

/-- Text between double braces requests what it requests by itself. -/
theorem requestsIn_between (front : List Char) (reference : Reference) (behind : List Char) :
    requestsIn (front ++ reference.write ++ behind) =
      requestsIn front ++ requestsIn reference.write ++ requestsIn behind := by
  rw [requestsIn, Reference.write, requestPattern_doubleBraced.pieces_between,
    List.filterMap_append, List.filterMap_append]
  rfl

/-- A text requests a name exactly if it refers to it with a lone hyphen for the value. -/
theorem mem_requestsIn_iff {characters : List Char} {name : String} :
    name ∈ requestsIn characters ↔
      .found ⟨some "-", name⟩ ∈ referencePattern.pieces characters := by
  rw [mem_requestsIn, requestPattern_doubleBraced.found_mem_pieces_iff,
    referencePattern_doubleBraced.found_mem_pieces_iff, write_request]
  exact and_congr_left fun _ => ⟨request_valid, Reference.Valid.isName⟩

theorem mem_requestsIn_reference {reference : Reference} (valid : reference.Valid) {name : String} :
    name ∈ requestsIn reference.write ↔ reference = ⟨some "-", name⟩ := by
  have pieces : referencePattern.pieces reference.write = [.found reference] :=
    referencePattern_doubleBraced.pieces_write_self valid
  rw [mem_requestsIn_iff, pieces]
  simp [eq_comm]

/-- A text that requests nothing is searched without a find. -/
theorem requestPieces_of_quiet {text : List Char} (quiet : requestsIn text = []) :
    requestPattern.pieces text = text.map .plain := by
  have plain : ∀ pieces : List (Piece String), pieces.filterMap Piece.request? = [] →
      pieces = (requestPattern.text pieces).map .plain := by
    intro pieces
    induction pieces with
    | nil => exact fun _ => rfl
    | cons piece pieces ih =>
      intro none
      cases piece with
      | plain character =>
        rw [List.filterMap_cons_none rfl] at none
        rw [Pattern.text_plain, List.map_cons, ← ih none]
      | found name => cases none
  have pieces := plain _ quiet
  rwa [text_requests] at pieces

theorem requestPieces_between {front : List Char} (quiet : requestsIn front = []) {name : String}
    (named : isName name.toList = true) (rest : List Char) :
    requestPattern.pieces (front ++ (Reference.mk (some "-") name).write ++ rest) =
      front.map .plain ++ .found name :: requestPattern.pieces rest := by
  rw [← write_request, requestPattern_doubleBraced.pieces_append_write named,
    requestPieces_of_quiet quiet]

/-- **A text, from request to request.** What holds of the texts without requests, and is kept when
a request is put in front, with any text without requests before it, holds of every text. -/
theorem requests_induction {motive : List Char → Prop} (text : List Char)
    (quiet : ∀ text, requestsIn text = [] → motive text)
    (request : ∀ front name rest, requestsIn front = [] → isName name.toList = true →
      motive rest → motive (front ++ (Reference.mk (some "-") name).write ++ rest)) :
    motive text := by
  have faithful := requestPattern_doubleBraced.faithful
  have silent : ∀ front : List Char, requestPattern.Stable none (front.map .plain) →
      requestsIn front = [] := by
    intro front stable
    rw [Pattern.Stable, Pattern.text_map_plain] at stable
    rw [requestsIn, Pattern.pieces, stable, List.filterMap_map]
    exact List.filterMap_eq_nil_iff.mpr fun _ _ => rfl
  -- `front` is what has been read since the last request: it may end inside stray braces.
  have steps : ∀ (pieces : List (Piece String)) (front : List Char),
      requestPattern.Stable none (front.map .plain ++ pieces) →
        motive (front ++ requestPattern.text pieces) := by
    intro pieces
    induction pieces with
    | nil =>
      intro front stable
      rw [List.append_nil] at stable
      rw [Pattern.text_nil, List.append_nil]
      exact quiet front (silent front stable)
    | cons piece pieces ih =>
      intro front stable
      cases piece with
      | plain character =>
        have moved := ih (front ++ [character]) (by simpa using stable)
        rwa [List.append_assoc] at moved
      | found name =>
        have apart : requestPattern.Apart (requestPattern.text (front.map .plain))
            (requestPattern.text (.found name :: pieces)) :=
          requestPattern_doubleBraced.apart_open _ _
        obtain ⟨here, later⟩ := (Pattern.stable_found_iff faithful).mp (stable.of_append faithful)
        have behind := later.forward requestPattern_doubleBraced.forward none
        have put := request front name _ (silent front (stable.left_of_append faithful apart))
          (requestPattern_doubleBraced.here_iff.mp here).1 (ih [] behind)
        rwa [List.append_assoc] at put
  have whole := steps (requestPattern.pieces text) [] (Pattern.stable_pieces faithful text)
  rwa [text_requests] at whole

/-- **A phrase and an utterance of it, from request to request.** What holds of a text without
requests and itself, and is kept when a request and an option for it are put in front, with any text
without requests before them, holds of a phrase and each of its utterances. -/
theorem utterancesOf_induction {motive : List Char → List Char → Prop} {catalog : Catalog}
    {phrase language utterance : String} (member : utterance ∈ utterancesOf phrase language catalog)
    (same : ∀ text, requestsIn text = [] → motive text text)
    (request : ∀ front name reference rest filling, requestsIn front = [] → Requests phrase name →
      Reference.write reference ∈ requestOptions catalog language name → motive rest filling →
        motive (front ++ (Reference.mk (some "-") name).write ++ rest)
          (front ++ reference.write ++ filling)) :
    motive phrase.toList utterance.toList := by
  have walk : ∀ text, (∀ name ∈ requestsIn text, Requests phrase name) →
      ∀ filling ∈ fillings (requestOptions catalog language) (requestPattern.pieces text),
        motive text filling := by
    intro text
    induction text using requests_induction with
    | quiet text quiet =>
      intro _ filling filled
      rw [requestPieces_of_quiet quiet, fillings_plain, List.mem_singleton] at filled
      exact filled ▸ same text quiet
    | request front name rest quiet named ih =>
      intro requested filling filled
      have pieces := requestPieces_between quiet named rest
      have asked : name ∈ requestsIn (front ++ (Reference.mk (some "-") name).write ++ rest) := by
        rw [mem_requestsIn, pieces]
        exact List.mem_append_right _ List.mem_cons_self
      rw [pieces, fillings_map_plain, List.mem_map] at filled
      obtain ⟨_, filled, rfl⟩ := filled
      obtain ⟨option, listed, later, inner, rfl⟩ := mem_fillings_found.mp filled
      obtain ⟨reference, rfl⟩ := exists_reference_of_mem_requestOptions listed
      have behind := ih (fun other left => requested other (by
        rw [requestsIn_between]
        exact List.mem_append_right _ left)) later inner
      rw [← List.append_assoc]
      exact request front name reference rest later quiet (requested name asked) listed behind
  exact walk phrase.toList (fun _ => requests_iff.mpr) utterance.toList (mem_utterancesOf.mp member)

/-- What a phrase requests, it mentions. -/
theorem Requests.mem_namesIn {phrase name : String} (requests : Requests phrase name) :
    name ∈ namesIn phrase.toList := by
  obtain ⟨before, behind, split⟩ := List.append_of_mem requests
  have spelled : phrase.toList = requestPattern.text before ++
      (Reference.mk (some "-") name).write ++ requestPattern.text behind := by
    rw [← text_requests phrase.toList, split, Pattern.text_append, List.append_assoc]
    rfl
  rw [spelled, namesIn_between, namesIn_reference (request_valid requests.isName)]
  simp

/-! ### Words without braces -/

/-- The words for entities in the language, synonyms and values, have no braces. -/
def Catalog.PlainWords (catalog : Catalog) (language : String) : Prop :=
  ∀ name values, catalog.valuesIn? name language = some values →
    ∀ word ∈ choices values, BraceFree word.toList

/-- For a catalog that is kept as a table, the entries tell. -/
theorem plainWords_catalog_iff {table : EntityTable} {language : String} :
    table.catalog.PlainWords language ↔
      ∀ entry ∈ table.entries, ∀ values ∈ entry.2.valuesIn? language,
        ∀ word ∈ choices values, BraceFree word.toList := by
  constructor
  · rintro plain ⟨name, entity⟩ member values listed
    have known : table.find? name = some entity := Dictionary.find?_eq_some_iff.mpr member
    exact plain name values (Option.bind_eq_some_iff.mpr ⟨entity, known, listed⟩)
  · intro free name values found
    obtain ⟨entity, known, listed⟩ := Option.bind_eq_some_iff.mp found
    exact free (name, entity) (Dictionary.find?_eq_some_iff.mp known) values listed

instance (table : EntityTable) (language : String) :
    Decidable (table.catalog.PlainWords language) :=
  decidable_of_iff _ plainWords_catalog_iff.symm

theorem Catalog.PlainWords.valid {catalog : Catalog} {language : String}
    (plain : catalog.PlainWords language) {name : String} (named : isName name.toList = true)
    {option : List Char} (listed : option ∈ requestOptions catalog language name) :
    ∃ reference : Reference, reference.Valid ∧ reference.name = name ∧
      option = reference.write := by
  rcases mem_requestOptions.mp listed with ⟨_, rfl⟩ | ⟨values, word, found, member, rfl⟩
  · exact ⟨⟨none, name⟩, Reference.valid_bare named, rfl, rfl⟩
  · have free := plain name values found word member
    exact ⟨⟨some word, name⟩, Reference.valid_annotated named free, rfl, rfl⟩

/-- **Words without braces leave the references where they are.** -/
theorem same_reading_of_mem_utterancesOf {catalog : Catalog} {language : String}
    (plain : catalog.PlainWords language) {phrase utterance : String}
    (member : utterance ∈ utterancesOf phrase language catalog) :
    namesIn utterance.toList = namesIn phrase.toList ∧
      hasStrayBrace utterance = hasStrayBrace phrase := by
  have reading : namesIn utterance.toList = namesIn phrase.toList ∧
      strayIn utterance.toList = strayIn phrase.toList := by
    refine utterancesOf_induction (motive := fun text filling =>
      namesIn filling = namesIn text ∧ strayIn filling = strayIn text) member ?_ ?_
    · exact fun text _ => ⟨rfl, rfl⟩
    · rintro front name _ rest filling _ requests listed ⟨names, strays⟩
      obtain ⟨reference, valid, entity, written⟩ := plain.valid requests.isName listed
      have asked := request_valid requests.isName
      rw [written, namesIn_between, namesIn_between, strayIn_between, strayIn_between,
        namesIn_reference valid, namesIn_reference asked, strayIn_reference valid,
        strayIn_reference asked, entity, names, strays]
      exact ⟨rfl, rfl⟩
  exact reading

/-! ### Expansions -/

namespace Expansion

variable {templates : List String} {language : String} {catalog : Catalog}

theorem mem_phrases {phrase : String} :
    phrase ∈ (ofTemplates templates language catalog).phrases ↔
      ∃ template ∈ templates, phrase ∈ phrasesOf template :=
  mem_phrasesOfAll

theorem mem_utterances {utterance : String} :
    utterance ∈ (ofTemplates templates language catalog).utterances ↔
      ∃ phrase ∈ (ofTemplates templates language catalog).phrases,
        utterance ∈ utterancesOf phrase language catalog :=
  List.mem_flatMap

end Expansion

end Phrasebook
