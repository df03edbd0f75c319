/-
**The entities of the utterances are the entities of the phrases.**

The entities of an expansion are read off its phrases, though they are handed on with its
utterances. Words without braces keep each utterance to the references of its phrase
(`same_reading_of_mem_utterancesOf`), so the utterances mention what the phrases with an utterance
mention, in the same order of first appearance (`mentionedNames_utterances`).

A phrase has no utterance exactly if it requests an entity whose list of values is empty
(`utterancesOf_ne_nil_iff`). What only such phrases mention is lost; without them, the utterances
mention exactly the entities of the expansion (`expansion_keeps_references`).
-/

import Phrasebook.Proofs.Phrase
import Phrasebook.Proofs.Sequence

namespace Phrasebook

open Text

/-! ### Phrases with an utterance -/

theorem choices_eq_nil_iff {values : List Entity.Value} : choices values = [] ↔ values = [] := by
  cases values <;> simp [choices]

theorem requestOptions_eq_nil_iff {catalog : Catalog} {language name : String} :
    requestOptions catalog language name = [] ↔ catalog.valuesIn? name language = some [] := by
  rw [requestOptions]
  split
  next missing => simp [missing]
  next values listed => simp [listed, choices_eq_nil_iff]

/-- A phrase has an utterance exactly if no entity that it requests has an empty list of values. -/
theorem utterancesOf_ne_nil_iff {phrase language : String} {catalog : Catalog} :
    utterancesOf phrase language catalog ≠ [] ↔
      ∀ name, Requests phrase name → catalog.valuesIn? name language ≠ some [] := by
  rw [utterancesOf, fillRequests_eq, ne_eq, List.map_eq_nil_iff, ← ne_eq, fillings_ne_nil_iff]
  simp only [ne_eq, requestOptions_eq_nil_iff, Requests]

/-! ### What the utterances mention -/

section Mentions

variable {catalog : Catalog} {language : String} (plain : catalog.PlainWords language)

include plain

/-- The utterances of one phrase mention what the phrase mentions, if there are any. -/
theorem eraseDups_names_utterancesOf {phrase : String}
    (inhabited : utterancesOf phrase language catalog ≠ []) :
    ((utterancesOf phrase language catalog).flatMap fun utterance =>
        namesIn utterance.toList).eraseDups = (namesIn phrase.toList).eraseDups := by
  have copies : ((utterancesOf phrase language catalog).flatMap fun utterance =>
      namesIn utterance.toList) =
        (utterancesOf phrase language catalog).flatMap fun _ => namesIn phrase.toList :=
    List.flatMap_congr fun _ member => (same_reading_of_mem_utterancesOf plain member).1
  rw [copies, eraseDups_copies inhabited]

/-- **The utterances mention** what the phrases with an utterance mention, in the same order. -/
theorem mentionedNames_utterances (phrases : List String) :
    mentionedNames (phrases.flatMap fun phrase => utterancesOf phrase language catalog) =
      mentionedNames (phrases.filter fun phrase => utterancesOf phrase language catalog ≠ []) := by
  have kept : (phrases.flatMap fun phrase => utterancesOf phrase language catalog) =
      (phrases.filter fun phrase => utterancesOf phrase language catalog ≠ []).flatMap
        fun phrase => utterancesOf phrase language catalog := by
    induction phrases with
    | nil => rfl
    | cons phrase phrases ih =>
      by_cases empty : utterancesOf phrase language catalog = []
      · simp [empty, ih]
      · simp [empty, ih]
  simp only [mentionedNames, names_references]
  rw [kept, List.flatMap_assoc]
  refine eraseDups_flatMap_congr fun phrase member => ?_
  exact eraseDups_names_utterancesOf plain (by simpa using (List.mem_filter.mp member).2)

/-- **Words without braces keep the references.** An utterance refers to the same entities as its
phrase, in the same order, and has a stray brace exactly if the phrase has one; so the utterances of
an expansion mention its entities in the order in which they are listed, unless a phrase requests an
entity whose list of values is empty. -/
theorem expansion_keeps_references :
    (∀ phrase, ∀ utterance ∈ utterancesOf phrase language catalog,
        (references utterance).map (·.name) = (references phrase).map (·.name) ∧
          hasStrayBrace utterance = hasStrayBrace phrase) ∧
      ∀ templates,
        (∀ phrase ∈ phrasesOfAll templates, ∀ name, Requests phrase name →
          catalog.valuesIn? name language ≠ some []) →
        mentionedNames (Expansion.ofTemplates templates language catalog).utterances =
          (Expansion.ofTemplates templates language catalog).names := by
  refine ⟨fun phrase utterance member => ?_, fun templates enumerated => ?_⟩
  · rw [names_references, names_references]
    exact same_reading_of_mem_utterancesOf plain member
  · have all : ∀ phrase ∈ phrasesOfAll templates, utterancesOf phrase language catalog ≠ [] :=
      fun phrase listed => utterancesOf_ne_nil_iff.mpr (enumerated phrase listed)
    show mentionedNames ((phrasesOfAll templates).flatMap fun phrase =>
      utterancesOf phrase language catalog) = mentionedNames (phrasesOfAll templates)
    rw [mentionedNames_utterances plain, List.filter_eq_self.mpr (by simpa using all)]

end Mentions

/-- Braces that are left around a request, and a name that a second phrase repeats. -/
theorem stray_seats_keep_references :
    let table : EntityTable := Dictionary.empty.insert "n"
      ⟨"T", some (Dictionary.empty.insert "en" [⟨"2", ["two"]⟩])⟩
    let templates :=
      ["\x7b\x7b\x7b-|n\x7d\x7d for \x7b\x7bm\x7d\x7d", "\x7bto|at\x7d \x7b\x7bm\x7d\x7d"]
    table.catalog.PlainWords "en" ∧
      (∀ phrase ∈ phrasesOfAll templates, ∀ name, Requests phrase name →
        table.catalog.valuesIn? name "en" ≠ some []) ∧
      mentionedNames (Expansion.ofTemplates templates "en" table.catalog).utterances =
        ["n", "m"] := by
  intro table templates
  have plain : table.catalog.PlainWords "en" := by decide +kernel
  have requested : ∀ phrase ∈ phrasesOfAll templates, ∀ name ∈ requestsIn phrase.toList,
      table.catalog.valuesIn? name "en" ≠ some [] := by
    decide +kernel
  have enumerated : ∀ phrase ∈ phrasesOfAll templates, ∀ name, Requests phrase name →
      table.catalog.valuesIn? name "en" ≠ some [] :=
    fun phrase listed name requests => requested phrase listed name (requests_iff.mp requests)
  have names : (Expansion.ofTemplates templates "en" table.catalog).names = ["n", "m"] := by
    decide +kernel
  exact ⟨plain, enumerated, ((expansion_keeps_references plain).2 templates enumerated).trans names⟩

end Phrasebook
