/-
**Well-formed templates, and the utterances that a compilation gives out.**

A compilation that succeeds gives out utterances of the grammar `IsUtterance` only, whatever the
templates and the catalog are: the check for stray braces accepts nothing else. Such an utterance is
`Settled`: there is nothing left in it to expand, and nothing left to read differently.

Templates of the grammar `IsTemplate` always pass that check, when the words of the catalog have no
braces. Choosing the slots leads into `IsUtterance` (`IsTemplate.isUtterance_of_mem_phrasesOf`), and
writing words into a phrase does not lead out of it (`same_reading_of_mem_utterancesOf`). What can
still go wrong is an entity that the catalog does not know.
-/

import Phrasebook.Proofs.Compilation

namespace Phrasebook

open Text

/-! ### Settled utterances -/

/-- Nothing is left in the utterance to expand, and nothing to read differently. -/
structure Settled (utterance : String) : Prop where
  isUtterance : IsUtterance utterance.toList
  /-- There is no slot group in it. -/
  slots : (Template.parse utterance).slots = []
  /-- As a template, it stands for itself only. -/
  phrases : phrasesOf utterance = [utterance]
  /-- What a reader sees of it is read as it is. -/
  spoken : spokenText (spokenText utterance) = spokenText utterance

theorem hasStrayBrace_eq_false_iff {utterance : String} :
    hasStrayBrace utterance = false ↔ IsUtterance utterance.toList := by
  rw [hasStrayBrace_eq]
  exact isUtterance_iff.symm

theorem settled_of_hasStrayBrace {utterance : String} (clean : hasStrayBrace utterance = false) :
    Settled utterance := by
  have grammar := hasStrayBrace_eq_false_iff.mp clean
  have shown : BraceFree (spokenText utterance).toList := braceFree_spoken_iff.mpr clean
  exact ⟨grammar, grammar.slots_parse, grammar.phrasesOf_eq, spokenText_of_braceFree shown⟩

/-- **The check for stray braces accepts exactly the utterances**, which are the texts that show no
brace to a reader; so what a compilation gives out is settled. -/
theorem strayBrace_check_exact :
    (∀ utterance, hasStrayBrace utterance = false ↔ IsUtterance utterance.toList) ∧
      (∀ utterance, hasStrayBrace utterance = false ↔
        '{' ∉ (spokenText utterance).toList ∧ '}' ∉ (spokenText utterance).toList) ∧
      ∀ intents services catalog language base compilation,
        compileTemplates intents services catalog language base = .ok compilation →
          ∀ configuration ∈ compilation.configurations, ∀ utterance ∈ configuration.utterances,
            Settled utterance := by
  refine ⟨fun utterance => hasStrayBrace_eq_false_iff, fun utterance => ?_, ?_⟩
  · rw [← braceFree_iff]
    exact braceFree_spoken_iff.symm
  · intro intents services catalog language base compilation compiled configuration made utterance
      listed
    obtain ⟨tables, _, faultless, rfl⟩ := compileTemplates_eq_ok_iff.mp compiled
    obtain ⟨intent, declared, rfl⟩ := List.mem_map.mp made
    exact settled_of_hasStrayBrace ((faultless intent declared).clean utterance listed)

/-! ### Well-formed templates -/

section Templates

variable {catalog : Catalog} {language : String} {templates : List String}

/-- Choosing the slots of well-formed templates leaves no slot group. -/
theorem slots_parse_of_mem_phrases
    (wellFormed : ∀ template ∈ templates, IsTemplate template.toList) {phrase : String}
    (listed : phrase ∈ (Expansion.ofTemplates templates language catalog).phrases) :
    (Template.parse phrase).slots = [] := by
  obtain ⟨template, given, member⟩ := Expansion.mem_phrases.mp listed
  have utterance := (wellFormed template given).isUtterance_of_mem_phrasesOf member
  exact utterance.1.slots_parse

/-- Well-formed templates give no utterance with a stray brace. -/
theorem clean_of_mem_utterances (plain : catalog.PlainWords language)
    (wellFormed : ∀ template ∈ templates, IsTemplate template.toList) {utterance : String}
    (listed : utterance ∈ (Expansion.ofTemplates templates language catalog).utterances) :
    hasStrayBrace utterance = false := by
  obtain ⟨phrase, phrases, member⟩ := Expansion.mem_utterances.mp listed
  obtain ⟨template, given, chosen⟩ := Expansion.mem_phrases.mp phrases
  have grammar := (wellFormed template given).isUtterance_of_mem_phrasesOf chosen
  have reading := same_reading_of_mem_utterancesOf plain member
  rw [reading.2, hasStrayBrace_eq_false_iff]
  exact grammar.1

/-- The phrases of well-formed templates mention the entities that the templates refer to. -/
theorem mem_mentions_ofTemplates
    (wellFormed : ∀ template ∈ templates, IsTemplate template.toList) {name : String} :
    name ∈ (Expansion.ofTemplates templates language catalog).mentions ↔
      ∃ template ∈ templates, RefersTo template.toList name := by
  rw [← IsTemplate.mem_mentionedNames_phrases wellFormed, ← Expansion.mem_names]
  rfl

/-- Well-formed templates are at fault only for an entity that the catalog does not know. -/
theorem faultless_ofTemplates_iff (plain : catalog.PlainWords language)
    (wellFormed : ∀ template ∈ templates, IsTemplate template.toList) :
    Faultless catalog (Expansion.ofTemplates templates language catalog) ↔
      ∀ template ∈ templates, ∀ name, RefersTo template.toList name →
        (catalog.find? name).isSome := by
  constructor
  · intro faultless template given name refers
    exact faultless.known name ((mem_mentions_ofTemplates wellFormed).mpr ⟨template, given, refers⟩)
  · intro known
    refine ⟨fun name mentioned => ?_, fun utterance listed => ?_⟩
    · obtain ⟨template, given, refers⟩ := (mem_mentions_ofTemplates wellFormed).mp mentioned
      exact known template given name refers
    · exact clean_of_mem_utterances plain wellFormed listed

/-- What is wrong with well-formed templates is an entity that one of them refers to. -/
theorem IntentFault.unknown_of_wellFormed (plain : catalog.PlainWords language)
    (wellFormed : ∀ template ∈ templates, IsTemplate template.toList) {intent : Intent}
    {error : BuildError}
    (fault : IntentFault catalog language intent
      (Expansion.ofTemplates templates language catalog) error) :
    ∃ template ∈ templates, ∃ name, RefersTo template.toList name ∧ catalog.find? name = none ∧
      ∃ known, error = .unknownEntity name intent.title language known := by
  cases fault with
  | @unknownEntity seen later known name split _ unknown _ _ =>
    have mentioned : name ∈ (Expansion.ofTemplates templates language catalog).mentions := by
      rw [split]
      exact List.mem_append_right _ List.mem_cons_self
    obtain ⟨template, given, refers⟩ := (mem_mentions_ofTemplates wellFormed).mp mentioned
    exact ⟨template, given, name, refers, unknown, known, rfl⟩
  | @leftoverPlaceholder seen later utterance _ split _ stray =>
    have listed : utterance ∈ (Expansion.ofTemplates templates language catalog).utterances := by
      rw [split]
      exact List.mem_append_right _ List.mem_cons_self
    have clean := clean_of_mem_utterances plain wellFormed listed
    rw [stray] at clean
    cases clean

end Templates

section Compilations

variable {catalog : Catalog} {language : String} {intents : List Intent}
  {services : List TemplateService} {base : TemplateTable} {tables : List TemplateTable}

/-- The templates that the intents find in the table are well-formed. -/
def WellFormedFor (table : TemplateTable) (intents : List Intent) : Prop :=
  ∀ intent ∈ intents, ∀ template ∈ table.templatesFor intent, IsTemplate template.toList

/-- Well-formed templates compile exactly if the catalog knows the entities that they refer to. -/
theorem compiles_iff_known (plain : catalog.PlainWords language)
    (offers : services.map (·.offer language) = tables.map .ok)
    (wellFormed : WellFormedFor (base.merged tables) intents) :
    (∃ compilation, compileTemplates intents services catalog language base = .ok compilation) ↔
      ∀ intent ∈ intents, ∀ template ∈ (base.merged tables).templatesFor intent,
        ∀ name, RefersTo template.toList name → (catalog.find? name).isSome := by
  constructor
  · rintro ⟨compilation, compiled⟩ intent declared
    have faultless := ((compileTemplates_eq_ok_iff_of_offers offers).mp compiled).1 intent declared
    exact (faultless_ofTemplates_iff plain (wellFormed intent declared)).mp faultless
  · intro known
    refine ⟨_, (compileTemplates_eq_ok_iff_of_offers offers).mpr ⟨fun intent declared => ?_, rfl⟩⟩
    exact (faultless_ofTemplates_iff plain (wellFormed intent declared)).mpr (known intent declared)

/-- When well-formed templates do not compile, the catalog lacks an entity of theirs. -/
theorem unknownEntity_of_error (plain : catalog.PlainWords language)
    (offers : services.map (·.offer language) = tables.map .ok)
    (wellFormed : WellFormedFor (base.merged tables) intents) {error : BuildError}
    (failed : compileTemplates intents services catalog language base = .error error) :
    ∃ intent ∈ intents, ∃ template ∈ (base.merged tables).templatesFor intent,
      ∃ name, RefersTo template.toList name ∧ catalog.find? name = none ∧ ∃ known,
        error = .unknownEntity name intent.title language known := by
  obtain ⟨before, intent, after, split, _, fault⟩ :=
    (compileTemplates_eq_error_iff_of_offers offers).mp failed
  have declared : intent ∈ intents := by
    rw [split]
    exact List.mem_append_right _ List.mem_cons_self
  exact ⟨intent, declared, fault.unknown_of_wellFormed plain (wellFormed intent declared)⟩

/-- **Well-formed templates never leave a placeholder.** Their phrases have no slot group and their
utterances no stray brace; they compile if the catalog knows all entities that they refer to, and
otherwise the compilation fails for one that it does not know. -/
theorem wellFormed_leaves_no_placeholder (plain : catalog.PlainWords language)
    (offers : services.map (·.offer language) = tables.map .ok)
    (wellFormed : WellFormedFor (base.merged tables) intents) :
    (∀ intent ∈ intents,
        ∀ phrase ∈ (expansionOf catalog language (base.merged tables) intent).phrases,
          (Template.parse phrase).slots = []) ∧
      (∀ intent ∈ intents,
        ∀ utterance ∈ (expansionOf catalog language (base.merged tables) intent).utterances,
          hasStrayBrace utterance = false) ∧
      ((∃ compilation, compileTemplates intents services catalog language base = .ok compilation) ↔
        ∀ intent ∈ intents, ∀ template ∈ (base.merged tables).templatesFor intent,
          ∀ name, RefersTo template.toList name → (catalog.find? name).isSome) ∧
      ((∃ intent ∈ intents, ∃ template ∈ (base.merged tables).templatesFor intent,
          ∃ name, RefersTo template.toList name ∧ catalog.find? name = none) →
        ∃ intent ∈ intents, ∃ template ∈ (base.merged tables).templatesFor intent,
          ∃ name, RefersTo template.toList name ∧ catalog.find? name = none ∧ ∃ known,
            compileTemplates intents services catalog language base =
              .error (.unknownEntity name intent.title language known)) ∧
      ∀ utterance title tongue, compileTemplates intents services catalog language base ≠
        .error (.leftoverPlaceholder utterance title tongue) := by
  have compiles := compiles_iff_known plain offers wellFormed
  refine ⟨fun intent declared phrase listed => ?_, fun intent declared utterance listed => ?_,
    compiles, ?_, ?_⟩
  · exact slots_parse_of_mem_phrases (wellFormed intent declared) listed
  · exact clean_of_mem_utterances plain (wellFormed intent declared) listed
  · rintro ⟨intent, declared, template, given, name, refers, unknown⟩
    cases result : compileTemplates intents services catalog language base with
    | ok compilation =>
      have known := compiles.mp ⟨compilation, result⟩ intent declared template given name refers
      rw [unknown] at known
      cases known
    | error error =>
      obtain ⟨faulty, member, part, inside, missing, referred, absent, known, rfl⟩ :=
        unknownEntity_of_error plain offers wellFormed result
      exact ⟨faulty, member, part, inside, missing, referred, absent, known, rfl⟩
  · intro utterance title tongue failed
    obtain ⟨_, _, _, _, _, _, _, _, impossible⟩ :=
      unknownEntity_of_error plain offers wellFormed failed
    cases impossible

/-- A slot group and a request that touch each other, in a template that a service offers. -/
theorem new_seats_compile :
    let catalog := EntityTable.catalog (Dictionary.empty.insert "n"
      ⟨"T", some (Dictionary.empty.insert "en" [⟨"2", ["two"]⟩])⟩)
    let offered : TemplateTable :=
      Dictionary.empty.insert "BookIntent" ["\x7bnew|\x7d\x7b\x7b-|n\x7d\x7d seats"]
    catalog.PlainWords "en" ∧
      WellFormedFor (TemplateTable.merged .empty [offered]) [.explicit "Book", .generic .help] ∧
      ∃ compilation, compileTemplates [.explicit "Book", .generic .help]
        [⟨"seats", fun _ => .ok offered⟩] catalog "en" .empty = .ok compilation := by
  intro catalog offered
  have plain : catalog.PlainWords "en" := by
    intro name values found word member
    obtain ⟨entity, there, listed⟩ := Option.bind_eq_some_iff.mp found
    simp only [catalog, EntityTable.catalog, Dictionary.find?_insert] at there
    split at there
    · cases there
      cases listed
      revert word
      decide +kernel
    · cases there
  have offers : [TemplateService.mk "seats" fun _ => .ok offered].map (·.offer "en") =
      [offered].map .ok := rfl
  have wellFormed : WellFormedFor (TemplateTable.merged .empty [offered])
      [.explicit "Book", .generic .help] := by
    unfold WellFormedFor
    rw [List.forall_mem_cons, List.forall_mem_singleton]
    refine ⟨?_, List.forall_mem_nil _⟩
    show ∀ template ∈ ["\x7bnew|\x7d\x7b\x7b-|n\x7d\x7d seats"], IsTemplate (String.toList template)
    rw [List.forall_mem_singleton]
    show IsTemplate ('{' :: ("new|".toList ++ '}' ::
      ((Reference.mk (some "-") "n").write ++ (" seats".toList ++ []))))
    exact .group (by decide +kernel) (by decide +kernel)
      (.reference (request_valid (by decide +kernel)) (.text (by decide +kernel) .nil))
  have known : ∀ intent ∈ [Intent.explicit "Book", .generic .help],
      ∀ template ∈ (TemplateTable.merged .empty [offered]).templatesFor intent,
        ∀ name, RefersTo template.toList name → (catalog.find? name).isSome := by
    have mentioned : ∀ intent ∈ [Intent.explicit "Book", .generic .help],
        ∀ template ∈ (TemplateTable.merged .empty [offered]).templatesFor intent,
          ∀ name ∈ namesIn template.toList, (catalog.find? name).isSome := by
      decide +kernel
    intro intent declared template given name refers
    refine mentioned intent declared template given name ?_
    exact (wellFormed intent declared template given).mem_namesIn_iff.mpr refers
  have leaves := wellFormed_leaves_no_placeholder plain offers wellFormed
  exact ⟨plain, wellFormed, leaves.2.2.1.mpr known⟩

end Compilations

end Phrasebook
