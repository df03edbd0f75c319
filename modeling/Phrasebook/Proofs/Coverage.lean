/-
**Which entities the utterances refer to.**

The entities of an intent are read off its phrases, and only these are looked up. The words of the
catalog are written into the phrases later, each between double braces of its own. A word may end
those braces and open others, and then the utterance refers to entities that no phrase mentions: the
word `one}} {{two` for `n` is written `{{one}} {{two|n}}`, which refers to `one` as well.

A word stands between its own braces, so what it refers to can be told from the word alone, whatever
stray braces the phrase has around it (`mem_namesIn_of_mem_utterancesOf`).

* `names_subset_iff_contained`: the utterances of an expansion refer to entities of its phrases only
  exactly if the expansion is `Contained`: the words that its requests ask for bring in no others;
* `covers_iff_contained`: exactly then a compilation that succeeds `Covers` its utterances;
* `covers_always_iff`: the catalogs with which every compilation does. Those whose words have no
  braces are among them (`Catalog.PlainWords.covers`).
-/

import Phrasebook.Proofs.Compilation

namespace Phrasebook

open Text

/-! ### What an utterance refers to -/

/-- A word for an entity, as it is written into a phrase. -/
def annotated (word name : String) : String := String.ofList (Reference.mk (some word) name).write

section Utterances

variable {catalog : Catalog} {language : String}

/-- **An utterance refers to what its phrase refers to, or to what an option refers to by itself.** -/
theorem mem_namesIn_of_mem_utterancesOf {phrase utterance : String}
    (member : utterance ∈ utterancesOf phrase language catalog) {name : String}
    (mentioned : name ∈ namesIn utterance.toList) :
    name ∈ namesIn phrase.toList ∨ ∃ requested, Requests phrase requested ∧
      ∃ option ∈ requestOptions catalog language requested, name ∈ namesIn option := by
  revert mentioned
  refine utterancesOf_induction (motive := fun text filling => name ∈ namesIn filling →
    name ∈ namesIn text ∨ ∃ requested, Requests phrase requested ∧
      ∃ option ∈ requestOptions catalog language requested, name ∈ namesIn option) member ?_ ?_
  · exact fun _ _ mentioned => .inl mentioned
  · intro front requested reference rest filling _ requests listed ih mentioned
    rw [namesIn_between]
    rw [namesIn_between] at mentioned
    rcases List.mem_append.mp mentioned with left | right
    · rcases List.mem_append.mp left with before | here
      · exact .inl (List.mem_append_left _ (List.mem_append_left _ before))
      · exact .inr ⟨requested, requests, reference.write, listed, here⟩
    · exact (ih right).imp_left (List.mem_append_right _)

/-- Each word for a requested entity is in an utterance, if there is an utterance at all. -/
theorem exists_utterance_of_mem_choices {phrase name word : String} {values : List Entity.Value}
    (inhabited : utterancesOf phrase language catalog ≠ []) (requests : Requests phrase name)
    (found : catalog.valuesIn? name language = some values) (member : word ∈ choices values) :
    ∃ before behind, String.ofList (before ++ (Reference.mk (some word) name).write ++ behind) ∈
      utterancesOf phrase language catalog := by
  have listed : (Reference.mk (some word) name).write ∈ requestOptions catalog language name :=
    mem_requestOptions.mpr (.inr ⟨values, word, found, member, rfl⟩)
  have filled : fillings (requestOptions catalog language)
      (requestPattern.pieces phrase.toList) ≠ [] := by
    intro empty
    apply inhabited
    rw [utterancesOf, fillRequests_eq, empty, List.map_nil]
  obtain ⟨before, behind, filling⟩ := exists_filling_of_mem filled requests listed
  exact ⟨before, behind, mem_utterancesOf.mpr (by rwa [String.toList_ofList])⟩

end Utterances

/-! ### Expansions -/

/-- The words for requested entities refer only to entities that the phrases mention anyway. -/
def Expansion.Contained (catalog : Catalog) (language : String) (expansion : Expansion) : Prop :=
  ∀ phrase ∈ expansion.phrases, utterancesOf phrase language catalog ≠ [] →
    ∀ name, Requests phrase name →
      ∀ values, catalog.valuesIn? name language = some values → ∀ word ∈ choices values,
        ∀ other ∈ mentionedNames [annotated word name], other ∈ expansion.mentions

/-- **Utterances refer to entities of the phrases only** exactly if the words bring in no others. -/
theorem names_subset_iff_contained (templates : List String) (language : String)
    (catalog : Catalog) :
    (∀ utterance ∈ (Expansion.ofTemplates templates language catalog).utterances,
        ∀ name ∈ mentionedNames [utterance],
          name ∈ (Expansion.ofTemplates templates language catalog).mentions) ↔
      (Expansion.ofTemplates templates language catalog).Contained catalog language := by
  constructor
  · intro within phrase listed inhabited name requests values found word member other mentioned
    obtain ⟨before, behind, utterance⟩ :=
      exists_utterance_of_mem_choices inhabited requests found member
    refine within _ (Expansion.mem_utterances.mpr ⟨phrase, listed, utterance⟩) other ?_
    have inside : other ∈ namesIn (Reference.mk (some word) name).write := by
      rw [mem_mentionedNames_singleton, annotated, String.toList_ofList] at mentioned
      exact mentioned
    rw [mem_mentionedNames_singleton, String.toList_ofList, namesIn_between]
    exact List.mem_append_left _ (List.mem_append_right _ inside)
  · intro contained utterance listed name mentioned
    obtain ⟨phrase, phrases, member⟩ := Expansion.mem_utterances.mp listed
    rcases mem_namesIn_of_mem_utterancesOf member (mem_mentionedNames_singleton.mp mentioned) with
      there | ⟨requested, requests, option, choice, inside⟩
    · exact Expansion.mem_mentions.mpr ⟨phrase, phrases, there⟩
    · rcases mem_requestOptions.mp choice with ⟨_, rfl⟩ | ⟨values, word, found, word_mem, rfl⟩
      · -- A request without words becomes a bare reference to the same entity.
        rw [namesIn_reference (Reference.valid_bare requests.isName), List.mem_singleton] at inside
        rw [inside]
        exact Expansion.mem_mentions.mpr ⟨phrase, phrases, requests.mem_namesIn⟩
      · have brought : name ∈ mentionedNames [annotated word requested] := by
          rw [mem_mentionedNames_singleton, annotated, String.toList_ofList]
          exact inside
        exact contained phrase phrases (List.ne_nil_of_mem member) requested requests values found
          word word_mem name brought

/-! ### Compilations -/

/-- Every entity that an utterance refers to is known, and listed with the utterance's intent. -/
def Covers (catalog : Catalog) (compilation : Compilation) : Prop :=
  ∀ configuration ∈ compilation.configurations, ∀ utterance ∈ configuration.utterances,
    ∀ name ∈ mentionedNames [utterance],
      (catalog.find? name).isSome ∧ name ∈ configuration.entities

section Compilations

variable {catalog : Catalog} {language : String}

/-- The entities of faultless intents are known, so only the listing matters. -/
theorem covers_configurations_iff {table : TemplateTable} {intents : List Intent}
    (faultless : ∀ intent ∈ intents, Faultless catalog (expansionOf catalog language table intent))
    (unused : List String) :
    Covers catalog ⟨intents.map (configurationOf catalog language table), unused⟩ ↔
      ∀ intent ∈ intents, (expansionOf catalog language table intent).Contained catalog language := by
  constructor
  · intro covers intent declared
    refine (names_subset_iff_contained _ _ _).mp fun utterance listed name mentioned => ?_
    have covered := covers _ (List.mem_map_of_mem declared) utterance listed name mentioned
    exact Expansion.mem_names.mp covered.2
  · intro contained configuration made utterance listed name mentioned
    obtain ⟨intent, declared, rfl⟩ := List.mem_map.mp made
    have within := (names_subset_iff_contained _ _ _).mpr (contained intent declared)
    have inside := within utterance listed name mentioned
    exact ⟨(faultless intent declared).known name inside, Expansion.mem_names.mpr inside⟩

/-- **A compilation covers its utterances** exactly if the words that its phrases request bring in
no entity that the phrases of the same intent do not mention. -/
theorem covers_iff_contained (intents : List Intent) (services : List TemplateService)
    (catalog : Catalog) (language : String) (base : TemplateTable) :
    (∀ compilation, compileTemplates intents services catalog language base = .ok compilation →
        Covers catalog compilation) ↔
      ∀ tables : List TemplateTable, services.map (·.offer language) = tables.map .ok →
        (∀ intent ∈ intents,
          Faultless catalog (expansionOf catalog language (base.merged tables) intent)) →
        ∀ intent ∈ intents,
          (expansionOf catalog language (base.merged tables) intent).Contained catalog language := by
  constructor
  · intro covers tables offers faultless
    have compiled := compileTemplates_eq_ok_iff.mpr ⟨tables, offers, faultless, rfl⟩
    exact (covers_configurations_iff faultless _).mp (covers _ compiled)
  · intro contained compilation compiled
    obtain ⟨tables, offers, faultless, rfl⟩ := compileTemplates_eq_ok_iff.mp compiled
    exact (covers_configurations_iff faultless _).mpr (contained tables offers faultless)

/-- **A word may bring in an entity that the catalog does not know**: one that closes its own braces
and opens others. -/
theorem word_brings_in_unknown_entity :
    let catalog := EntityTable.catalog (Dictionary.empty.insert "n"
      ⟨"T", some (Dictionary.empty.insert "en" [⟨"one\x7d\x7d \x7b\x7btwo", []⟩])⟩)
    let compilation : Compilation :=
      ⟨[⟨.explicit "Book", ["\x7b\x7bone\x7d\x7d \x7b\x7btwo|n\x7d\x7d"], ["n"]⟩], []⟩
    compileTemplates [.explicit "Book"] [] catalog "en"
        (Dictionary.empty.insert "BookIntent" ["\x7b\x7b-|n\x7d\x7d"]) = .ok compilation ∧
      ¬ Covers catalog compilation := by
  refine ⟨rfl, fun covers => ?_⟩
  have mentioned : "one" ∈ mentionedNames ["\x7b\x7bone\x7d\x7d \x7b\x7btwo|n\x7d\x7d"] := by
    decide +kernel
  have covered := covers _ List.mem_cons_self _ List.mem_cons_self "one" mentioned
  exact absurd covered.1 (by decide +kernel)

/-! ### Catalogs -/

/-- No word of the catalog brings in an entity, unless some word for the same entity leaves a stray
brace, so that no utterance can have it. -/
def Catalog.Contained (catalog : Catalog) (language : String) : Prop :=
  ∀ name values, isName name.toList = true → catalog.valuesIn? name language = some values →
    (∀ word ∈ choices values, hasStrayBrace (annotated word name) = false) →
      ∀ word ∈ choices values, ∀ other ∈ mentionedNames [annotated word name], other = name

/-- Words without braces bring in nothing. -/
theorem Catalog.PlainWords.contained (plain : catalog.PlainWords language) :
    catalog.Contained language := by
  intro name values named found clean word member other mentioned
  have valid := Reference.valid_annotated named (plain name values found word member)
  rw [mem_mentionedNames_singleton, annotated, String.toList_ofList, namesIn_reference valid]
    at mentioned
  exact List.mem_singleton.mp mentioned

/-- A word that leaves a stray brace leaves it in an utterance. -/
theorem Faultless.clean_annotated {templates : List String}
    (faultless : Faultless catalog (Expansion.ofTemplates templates language catalog))
    {phrase name word : String} {values : List Entity.Value}
    (listed : phrase ∈ (Expansion.ofTemplates templates language catalog).phrases)
    (inhabited : utterancesOf phrase language catalog ≠ []) (requests : Requests phrase name)
    (found : catalog.valuesIn? name language = some values) (member : word ∈ choices values) :
    hasStrayBrace (annotated word name) = false := by
  obtain ⟨before, behind, utterance⟩ :=
    exists_utterance_of_mem_choices inhabited requests found member
  have whole := faultless.clean _ (Expansion.mem_utterances.mpr ⟨phrase, listed, utterance⟩)
  rw [hasStrayBrace_eq, String.toList_ofList, strayIn_between, Bool.or_eq_false_iff,
    Bool.or_eq_false_iff] at whole
  rw [hasStrayBrace_eq, annotated, String.toList_ofList]
  exact whole.1.2

theorem Catalog.Contained.expansion (contained : catalog.Contained language)
    {templates : List String}
    (faultless : Faultless catalog (Expansion.ofTemplates templates language catalog)) :
    (Expansion.ofTemplates templates language catalog).Contained catalog language := by
  intro phrase listed inhabited name requests values found word member other mentioned
  have clean : ∀ word ∈ choices values, hasStrayBrace (annotated word name) = false :=
    fun _ member => faultless.clean_annotated listed inhabited requests found member
  rw [contained name values requests.isName found clean word member other mentioned]
  exact Expansion.mem_mentions.mpr ⟨phrase, listed, requests.mem_namesIn⟩

/-! ### A lone request -/

/-- The template that asks for the words for an entity and says nothing else. -/
def loneRequest (name : String) : String := String.ofList (requestPattern.write name)

/-- The expansion of a lone request. -/
def loneExpansion (name : String) (values : List Entity.Value) : Expansion :=
  ⟨[loneRequest name], (choices values).map fun word => annotated word name⟩

section LoneRequest

variable {name : String} (named : isName name.toList = true) {values : List Entity.Value}
  (found : catalog.valuesIn? name language = some values)

include named

theorem phrasesOf_loneRequest : phrasesOf (loneRequest name) = [loneRequest name] := by
  refine IsUtterance.phrasesOf_eq ?_
  rw [loneRequest, String.toList_ofList, write_request, ← List.append_nil (Reference.write _)]
  exact .reference (request_valid named) .nil

theorem mentions_loneExpansion : (loneExpansion name values).mentions = [name] := by
  rw [Expansion.mentions, loneExpansion, List.flatMap_singleton, names_references, loneRequest,
    String.toList_ofList, write_request, namesIn_reference (request_valid named)]

include found

theorem utterancesOf_loneRequest :
    utterancesOf (loneRequest name) language catalog =
      (choices values).map fun word => annotated word name := by
  have pieces : requestPattern.pieces (loneRequest name).toList = [.found name] := by
    rw [loneRequest, String.toList_ofList]
    exact requestPattern_doubleBraced.pieces_write_self named
  rw [utterancesOf, fillRequests_eq, pieces]
  simp [fillings, requestOptions, found, Function.comp_def, annotated]

/-- An intent that makes a lone request, and is not at fault, has each word in an utterance. -/
theorem compileTemplates_loneRequest
    (clean : ∀ word ∈ choices values, hasStrayBrace (annotated word name) = false) :
    ∃ base unused, compileTemplates [.explicit ""] [] catalog language base =
      .ok ⟨[⟨.explicit "", (choices values).map fun word => annotated word name, [name]⟩],
        unused⟩ := by
  let base : TemplateTable := Dictionary.empty.insert "Intent" [loneRequest name]
  have templates : base.templatesFor (.explicit "") = [loneRequest name] := by
    have there : base.find? "Intent" = some [loneRequest name] := Dictionary.find?_insert_self ..
    rw [TemplateTable.templatesFor, Intent.key, String.empty_append, there, Option.getD_some]
  have expansion : expansionOf catalog language base (.explicit "") = loneExpansion name values := by
    rw [expansionOf, templates, Expansion.ofTemplates, phrasesOfAll, List.flatMap_singleton,
      phrasesOf_loneRequest named, List.flatMap_singleton, utterancesOf_loneRequest named found,
      loneExpansion]
  have faultless : Faultless catalog (loneExpansion name values) := by
    refine ⟨fun mentioned inside => ?_, fun utterance listed => ?_⟩
    · rw [mentions_loneExpansion named, List.mem_singleton] at inside
      obtain ⟨entity, known, _⟩ := Option.bind_eq_some_iff.mp found
      rw [inside, known, Option.isSome_some]
    · obtain ⟨word, inside, rfl⟩ := List.mem_map.mp listed
      exact clean word inside
  have names : (loneExpansion name values).names = [name] := by
    rw [Expansion.names_eq, mentions_loneExpansion named]
    rfl
  refine ⟨base, unusedKeysOf base [.explicit ""], compileTemplates_eq_ok_iff.mpr ⟨[], rfl, ?_, ?_⟩⟩
  · show ∀ intent ∈ [Intent.explicit ""], Faultless catalog (expansionOf catalog language base intent)
    rw [List.forall_mem_singleton, expansion]
    exact faultless
  · show _ = Compilation.mk [configurationOf catalog language base (.explicit "")] _
    rw [configurationOf, expansion, names]
    rfl

end LoneRequest

/-- **The catalogs with which every compilation covers its utterances** are those of which no word
brings in an entity. -/
theorem covers_always_iff :
    (∀ intents services base compilation,
        compileTemplates intents services catalog language base = .ok compilation →
          Covers catalog compilation) ↔ catalog.Contained language := by
  constructor
  · intro covers name values named found clean word member other mentioned
    obtain ⟨base, unused, compiled⟩ := compileTemplates_loneRequest named found clean
    have covered := covers _ _ base _ compiled _ List.mem_cons_self (annotated word name)
      (List.mem_map_of_mem member) other mentioned
    exact List.mem_singleton.mp covered.2
  · intro contained intents services base compilation compiled
    obtain ⟨tables, _, faultless, rfl⟩ := compileTemplates_eq_ok_iff.mp compiled
    exact (covers_configurations_iff faultless _).mpr fun intent declared =>
      contained.expansion (faultless intent declared)

/-- When the words have no braces, every compilation covers its utterances. -/
theorem Catalog.PlainWords.covers (plain : catalog.PlainWords language) {intents : List Intent}
    {services : List TemplateService} {base : TemplateTable} {compilation : Compilation}
    (compiled : compileTemplates intents services catalog language base = .ok compilation) :
    Covers catalog compilation :=
  covers_always_iff.mpr plain.contained intents services base compilation compiled

end Compilations

end Phrasebook
