/-
**Which requests are left in the utterances.**

A request is replaced by a text of the same form: the word `two` for `n` is written `{{two|n}}`, as
the request is written `{{-|n}}`. The requests of a phrase are replaced in one pass, and what is
written is not looked at again. So a word that is a lone hyphen leaves the request as it was, and a
word that ends its own braces may leave one of its own, as `a}} {{-` does.

* `mem_requestsIn_of_mem_utterancesOf`: what an utterance requests, a word written into it requests
  by itself;
* `leavesNoRequest_iff_answered`: a compilation leaves no request exactly if none of the words that
  its phrases ask for holds one;
* `leavesNoRequest_always_iff`: the catalogs with which no compilation leaves a request. If their
  words have no braces, these are the catalogs without a lone hyphen
  (`Catalog.PlainWords.leavesNoRequest_iff`).
-/

import Phrasebook.Proofs.Coverage

namespace Phrasebook

open Text

/-! ### Texts with a request -/

/-- Somewhere in the text stands a request, for whatever name. -/
def HoldsRequest (text : String) : Prop :=
  ∃ name : String, isName name.toList = true ∧ requestPattern.write name <:+: text.toList

/-- The search for requests misses none. -/
theorem holdsRequest_iff {text : String} :
    HoldsRequest text ↔ ∃ name, name ∈ requestsIn text.toList := by
  simp only [HoldsRequest, mem_requestsIn, requestPattern_doubleBraced.found_mem_pieces_iff]

/-- A word without braces holds a request, once it is written, exactly if it is a lone hyphen. -/
theorem holdsRequest_annotated_iff {word name : String} (free : BraceFree word.toList)
    (named : isName name.toList = true) : HoldsRequest (annotated word name) ↔ word = "-" := by
  have valid := Reference.valid_annotated named free
  rw [holdsRequest_iff, annotated, String.toList_ofList]
  simp only [mem_requestsIn_reference valid, Reference.mk.injEq, Option.some.injEq, exists_and_left,
    exists_eq', and_true]

section Utterances

variable {catalog : Catalog} {language phrase utterance : String}

/-- **What an utterance requests**, a word that the phrase requests brings in by itself. -/
theorem mem_requestsIn_of_mem_utterancesOf
    (member : utterance ∈ utterancesOf phrase language catalog) {name : String}
    (left : name ∈ requestsIn utterance.toList) :
    ∃ asked, Requests phrase asked ∧ ∃ values, catalog.valuesIn? asked language = some values ∧
      ∃ word ∈ choices values, name ∈ requestsIn (annotated word asked).toList := by
  revert left
  refine utterancesOf_induction (motive := fun _ filling => name ∈ requestsIn filling →
    ∃ asked, Requests phrase asked ∧ ∃ values, catalog.valuesIn? asked language = some values ∧
      ∃ word ∈ choices values, name ∈ requestsIn (annotated word asked).toList) member ?_ ?_
  · intro text quiet left
    rw [quiet] at left
    cases left
  · intro front asked reference rest filling quiet requests listed ih left
    rw [requestsIn_between, quiet, List.nil_append] at left
    rcases List.mem_append.mp left with here | later
    · refine ⟨asked, requests, ?_⟩
      rcases mem_requestOptions.mp listed with ⟨_, same⟩ | ⟨values, word, found, chosen, same⟩
      · -- A bare reference requests nothing.
        rw [same, mem_requestsIn_reference (Reference.valid_bare requests.isName)] at here
        cases here
      · refine ⟨values, found, word, chosen, ?_⟩
        rwa [annotated, String.toList_ofList, ← same]
    · exact ih later

end Utterances

/-! ### Expansions -/

/-- The word is written for the entity: a phrase that has an utterance requests the words for the
entity, and this is one of them. -/
def Expansion.AsksFor (catalog : Catalog) (language : String) (expansion : Expansion)
    (word name : String) : Prop :=
  ∃ phrase ∈ expansion.phrases, utterancesOf phrase language catalog ≠ [] ∧ Requests phrase name ∧
    ∃ values, catalog.valuesIn? name language = some values ∧ word ∈ choices values

/-- **Some utterance holds a request** exactly if one of the words that are asked for does. -/
theorem exists_holdsRequest_iff (templates : List String) (language : String) (catalog : Catalog) :
    (∃ utterance ∈ (Expansion.ofTemplates templates language catalog).utterances,
        HoldsRequest utterance) ↔
      ∃ word name, (Expansion.ofTemplates templates language catalog).AsksFor catalog language
        word name ∧ HoldsRequest (annotated word name) := by
  constructor
  · rintro ⟨utterance, listed, holds⟩
    obtain ⟨phrase, phrases, member⟩ := Expansion.mem_utterances.mp listed
    obtain ⟨left, inside⟩ := holdsRequest_iff.mp holds
    obtain ⟨name, requests, values, found, word, chosen, brought⟩ :=
      mem_requestsIn_of_mem_utterancesOf member inside
    have inhabited := List.ne_nil_of_mem member
    exact ⟨word, name, ⟨phrase, phrases, inhabited, requests, values, found, chosen⟩,
      holdsRequest_iff.mpr ⟨left, brought⟩⟩
  · rintro ⟨word, name, ⟨phrase, phrases, inhabited, requests, values, found, chosen⟩, holds⟩
    obtain ⟨before, behind, member⟩ :=
      exists_utterance_of_mem_choices inhabited requests found chosen
    obtain ⟨left, inside⟩ := holdsRequest_iff.mp holds
    rw [annotated, String.toList_ofList] at inside
    refine ⟨_, Expansion.mem_utterances.mpr ⟨phrase, phrases, member⟩, ?_⟩
    rw [holdsRequest_iff, String.toList_ofList]
    refine ⟨left, ?_⟩
    rw [requestsIn_between]
    exact List.mem_append_left _ (List.mem_append_right _ inside)

/-- The words that the phrases ask for hold no request. -/
def Expansion.Answered (catalog : Catalog) (language : String) (expansion : Expansion) : Prop :=
  ∀ word name, expansion.AsksFor catalog language word name → ¬ HoldsRequest (annotated word name)

theorem not_holdsRequest_iff_answered (templates : List String) (language : String)
    (catalog : Catalog) :
    (∀ utterance ∈ (Expansion.ofTemplates templates language catalog).utterances,
        ¬ HoldsRequest utterance) ↔
      (Expansion.ofTemplates templates language catalog).Answered catalog language := by
  have held := exists_holdsRequest_iff templates language catalog
  simpa only [Expansion.Answered, not_exists, not_and] using not_congr held

/-! ### Compilations -/

/-- No utterance that is handed on holds a request. -/
def LeavesNoRequest (compilation : Compilation) : Prop :=
  ∀ configuration ∈ compilation.configurations, ∀ utterance ∈ configuration.utterances,
    ¬ HoldsRequest utterance

/-- **A compilation leaves no request** exactly if no word that its phrases ask for holds one. -/
theorem leavesNoRequest_iff_answered (intents : List Intent) (services : List TemplateService)
    (catalog : Catalog) (language : String) (base : TemplateTable) :
    (∀ compilation, compileTemplates intents services catalog language base = .ok compilation →
        LeavesNoRequest compilation) ↔
      ∀ tables : List TemplateTable, services.map (·.offer language) = tables.map .ok →
        (∀ intent ∈ intents,
          Faultless catalog (expansionOf catalog language (base.merged tables) intent)) →
        ∀ intent ∈ intents,
          (expansionOf catalog language (base.merged tables) intent).Answered catalog language := by
  unfold LeavesNoRequest
  rw [forall_configurations_iff]
  refine forall₃_congr fun tables _ _ => forall₂_congr fun intent _ => ?_
  exact not_holdsRequest_iff_answered ((base.merged tables).templatesFor intent) language catalog

/-- **A lone hyphen survives**: written as a word for the entity, it requests the words again. -/
theorem hyphen_survives :
    let catalog := EntityTable.catalog (Dictionary.empty.insert "n"
      ⟨"T", some (Dictionary.empty.insert "en" [⟨"-", []⟩])⟩)
    let compilation : Compilation :=
      ⟨[⟨.explicit "Book", ["\x7b\x7b-|n\x7d\x7d"], ["n"]⟩], []⟩
    compileTemplates [.explicit "Book"] [] catalog "en"
        (Dictionary.empty.insert "BookIntent" ["\x7b\x7b-|n\x7d\x7d"]) = .ok compilation ∧
      ¬ LeavesNoRequest compilation := by
  refine ⟨rfl, fun leaves => leaves _ List.mem_cons_self _ List.mem_cons_self ?_⟩
  exact ⟨"n", by decide +kernel, by decide +kernel⟩

/-! ### Catalogs -/

section Catalogs

variable {catalog : Catalog} {language : String}

/-- No word of the catalog holds a request, unless some word for the same entity leaves a stray
brace, so that no utterance can have it. -/
def Catalog.Answers (catalog : Catalog) (language : String) : Prop :=
  ∀ name values, isName name.toList = true → catalog.valuesIn? name language = some values →
    (∀ word ∈ choices values, hasStrayBrace (annotated word name) = false) →
      ∀ word ∈ choices values, ¬ HoldsRequest (annotated word name)

/-- **The catalogs with which no compilation leaves a request** are those of which no word holds
one. -/
theorem leavesNoRequest_always_iff :
    (∀ intents services base compilation,
        compileTemplates intents services catalog language base = .ok compilation →
          LeavesNoRequest compilation) ↔ catalog.Answers language := by
  constructor
  · intro leaves name values named found clean word member
    obtain ⟨base, unused, compiled⟩ := compileTemplates_loneRequest named found clean
    exact leaves _ _ base _ compiled _ List.mem_cons_self (annotated word name)
      (List.mem_map_of_mem member)
  · intro answers intents services base
    refine forall_configurations_iff.mpr fun tables _ faultless intent declared => ?_
    refine (not_holdsRequest_iff_answered _ language catalog).mpr ?_
    rintro word name ⟨phrase, phrases, inhabited, requests, values, found, member⟩
    have clean : ∀ word ∈ choices values, hasStrayBrace (annotated word name) = false :=
      fun _ member =>
        (faultless intent declared).clean_annotated phrases inhabited requests found member
    exact answers name values requests.isName found clean word member

/-- When the words have no braces, only a lone hyphen is left as a request. -/
theorem Catalog.PlainWords.leavesNoRequest_iff (plain : catalog.PlainWords language) :
    (∀ intents services base compilation,
        compileTemplates intents services catalog language base = .ok compilation →
          LeavesNoRequest compilation) ↔
      ∀ name values, isName name.toList = true → catalog.valuesIn? name language = some values →
        "-" ∉ choices values := by
  rw [leavesNoRequest_always_iff]
  refine forall₄_congr fun name values named found => ?_
  have free : ∀ word ∈ choices values, BraceFree word.toList := plain name values found
  have clean : ∀ word ∈ choices values, hasStrayBrace (annotated word name) = false := by
    intro word member
    rw [hasStrayBrace_eq, annotated, String.toList_ofList]
    exact strayIn_reference (Reference.valid_annotated named (free word member))
  constructor
  · intro answers hyphen
    exact answers clean "-" hyphen
      ((holdsRequest_annotated_iff (free "-" hyphen) named).mpr rfl)
  · intro without _ word member holds
    rw [holdsRequest_annotated_iff (free word member) named] at holds
    exact without (holds ▸ member)

end Catalogs

end Phrasebook
